/-
# Aborting and reporting

A fleet host that fails ends the run under one policy and is reported under the
other. That is all the policies differ in:

| the aborting run | the reporting run |
| --- | --- |
| ends with a failure of the bootstrap phase | ends with the same failure |
| comes to a directory | comes to the same directory, without failures |
| ends with the failure of a fleet host | comes to a directory that lists this host first among its failures |

Both make the same calls on every host, so a run that aborts has brought every
fleet host to its own end.

Main statement: `DeploymentPlan.deploy_abort_report`.
-/

import Rollout.Proofs.Deployment.Policies

namespace Rollout

variable {σ ν : Type}

namespace DeploymentPlan

variable {plan : DeploymentPlan} {remote : Remote σ} {schedule schedule' : Schedule}
  {patience : Nat} {s : σ} {t : Nat} {view : String → σ → ν}
  {os : List (Outcome Failure HostNodes)} {b : BootstrapNodes}

/-! ### One fleet host by itself -/

/-- The deployment of the fleet host at a position after the bootstrap phase, by
itself. -/
def fleetHostRun (plan : DeploymentPlan) (remote : Remote σ) (patience : Nat) (s : σ) (t : Nat)
    (address : Multiaddr) (i : Nat) (host : String) : Run σ (Outcome Failure HostNodes) :=
  Task.run remote i
    ⟨host, plan.fleet.hostProgram plan.settings patience (some address) i host⟩
    (plan.bootstrapRun remote patience s t).state (plan.bootstrapRun remote patience s t).time

/-- **A fleet host is deployed to its own end**, with the calls that it would make
by itself. -/
theorem callsOn_fleetHost (schedule : Schedule) (loc : remote.IsLocal view)
    (nodup : plan.inventory.hosts.Nodup)
    (h : (plan.bootstrapRun remote patience s t).result = some os)
    (hb : BootstrapNodes.ofOutcomes plan.settings.missingIdentity os = .ok b) {i : Nat}
    {host : String} (hi : plan.fleet.hosts[i]? = some host) :
    callsOn host (plan.deploy remote schedule patience s t).calls =
        (plan.fleetHostRun remote patience s t b.address i host).calls ∧
      ((plan.deploy remote schedule patience s t).result ≠ none →
        (plan.fleetHostRun remote patience s t b.address i host).result ≠ none) := by
  have apart := nodup_fleet nodup
  have before := callsOn_bootstrapRun remote patience s t nodup (List.mem_of_getElem? hi)
  have home : ∀ task ∈ plan.fleet.tasks plan.settings patience (some b.address), task.StaysHome :=
    PhasePlan.staysHome_tasks
  obtain ⟨events, outcome⟩ := executeTogether_alone loc schedule home
    (PhasePlan.map_host_tasks ▸ apart) (plan.bootstrapRun remote patience s t).state
    (plan.bootstrapRun remote patience s t).time (PhasePlan.getElem?_tasks_of_host hi)
  rw [deploy_of_passed schedule h hb]
  constructor
  · rw [callsOn_after]
    change callsOn host (plan.bootstrapRun remote patience s t).calls ++ _ = _
    rw [before, List.nil_append]
    refine ((fleetRun_placed b.address).callsOn_eq apart hi).trans ?_
    exact congrArg (List.filterMap Event.issuedCall?) events
  · intro hresult
    obtain ⟨d, hd⟩ := Option.ne_none_iff_exists'.1 hresult
    obtain ⟨os', hos', -⟩ := Option.map_eq_some_iff.1 hd
    obtain ⟨o, ho, -⟩ := outcome os' hos'
    exact Option.ne_none_iff_exists'.2 ⟨o, ho⟩

/-! ### The two runs -/

/-- The plan with another policy for fleet hosts that fail. -/
def withFleetPolicy (plan : DeploymentPlan) (fleet : FleetPolicy) : DeploymentPlan :=
  plan.under fleet plan.settings.missingIdentity

/-- What a run that aborts is to a run that reports. -/
structure AbortsAsReported (plan : DeploymentPlan) (remote : Remote σ) (patience : Nat) (s : σ)
    (t : Nat) (abort report : Run σ (Except Failure NodeDirectory)) : Prop where
  calls : SameCalls abort report
  cut : abort.result = none ↔ report.result = none
  refused : ∀ f, (plan.deployBootstrap remote patience s t).result = some (.error f) →
    abort.result = some (.error f) ∧ report.result = some (.error f)
  succeeded : ∀ d, abort.result = some (.ok d) →
    report.result = some (.ok d) ∧ d.failures = []
  /-- The host that a run aborts for is the first that is reported, with the same causes. -/
  failed : ∀ b f, (plan.deployBootstrap remote patience s t).result = some (.ok b) →
    abort.result = some (.error f) →
    ∃ d failure others causes, report.result = some (.ok d) ∧
      d.failures = failure :: others ∧
      f.chain = ("Fleet host " ++ failure.host ++ " failed") :: causes ∧
      failure.cause = ": ".intercalate causes
  /-- A run that aborts has brought every fleet host to its own end. -/
  toItsEnd : ∀ b, (plan.deployBootstrap remote patience s t).result = some (.ok b) →
    ∀ (i : Nat) (host : String), plan.fleet.hosts[i]? = some host →
      callsOn host abort.calls = (plan.fleetHostRun remote patience s t b.address i host).calls ∧
        (abort.result ≠ none →
          (plan.fleetHostRun remote patience s t b.address i host).result ≠ none)

/-- What the outcomes of the fleet come to under the two policies. -/
theorem ofOutcomes_abort_report (settings : Settings) (identity : IdentityPolicy)
    (b : BootstrapNodes) (os : List (Outcome Failure HostNodes)) :
    (∃ d, NodeDirectory.ofOutcomes (settings.under .abort identity) b os = .ok d ∧
      NodeDirectory.ofOutcomes (settings.under .report identity) b os = .ok d ∧
      d.failures = []) ∨
    ∃ f d failure others causes,
      NodeDirectory.ofOutcomes (settings.under .abort identity) b os = .error f ∧
      NodeDirectory.ofOutcomes (settings.under .report identity) b os = .ok d ∧
      d.failures = failure :: others ∧
      f.chain = ("Fleet host " ++ failure.host ++ " failed") :: causes ∧
      failure.cause = ": ".intercalate causes := by
  rw [NodeDirectory.ofOutcomes, NodeDirectory.ofOutcomes, fleetNodes_report]
  cases h : fleetNodes (settings.under .abort identity) os with
  | ok found =>
    obtain ⟨nodes, failures⟩ := found
    obtain ⟨rfl, hfailures, abort⟩ := fleetNodes_eq_ok h
    obtain rfl := abort rfl
    rw [Settings.missingIdentity_under] at hfailures
    rw [← hfailures]
    exact .inl ⟨_, rfl, rfl, rfl⟩
  | error f =>
    obtain ⟨-, before, o, after, g, rfl, clean, refused, rfl⟩ := fleetNodes_eq_error h
    rw [Settings.missingIdentity_under] at clean refused
    refine .inr ⟨_, _, ⟨o.host, g.line⟩, after.filterMap (failureOf? identity), g.chain, rfl, rfl,
      ?_, rfl, rfl⟩
    have entry : failureOf? identity o = some ⟨o.host, g.line⟩ := by rw [failureOf?, refused]
    dsimp only
    rw [List.filterMap_append, clean, List.nil_append, List.filterMap_cons_some entry]

/-- What one fleet host does depends on no policy. -/
theorem fleetHostRun_under (fleet : FleetPolicy) (identity : IdentityPolicy)
    (address : Multiaddr) (i : Nat) (host : String) :
    (plan.under fleet identity).fleetHostRun remote patience s t address i host =
      plan.fleetHostRun remote patience s t address i host := by
  rw [fleetHostRun, fleetHostRun, bootstrapRun_under]
  rfl

/-- Two runs that go on with the fleet, in one schedule. -/
theorem abortsAsReported_of_passed (schedule : Schedule) (loc : remote.IsLocal view)
    (nodup : plan.inventory.hosts.Nodup)
    (h : (plan.bootstrapRun remote patience s t).result = some os)
    (hb : BootstrapNodes.ofOutcomes plan.settings.missingIdentity os = .ok b) :
    plan.AbortsAsReported remote patience s t
      ((plan.withFleetPolicy .abort).deploy remote schedule patience s t)
      ((plan.withFleetPolicy .report).deploy remote schedule patience s t) := by
  have boot : (plan.deployBootstrap remote patience s t).result = some (.ok b) :=
    (congrArg (Option.map _) h).trans (congrArg some hb)
  -- Up to the outcomes the two runs are one; only what becomes of these depends on the policy.
  have going : ∀ fleet, (plan.withFleetPolicy fleet).deploy remote schedule patience s t =
      ((plan.fleetRunAfter remote schedule patience s t b.address).map
        (NodeDirectory.ofOutcomes
          (plan.settings.under fleet plan.settings.missingIdentity) b)).after
            (plan.bootstrapRun remote patience s t).events :=
    fun _ => deploy_under_of_passed h hb
  constructor
  case calls =>
    rw [going, going]
    exact fun _ => rfl
  case cut =>
    rw [going, going]
    simp only [Run.after_result, Run.map_result, Option.map_eq_none_iff]
  case refused =>
    intro f hf
    rw [boot] at hf
    cases hf
  case succeeded =>
    intro d hd
    rw [going] at hd
    obtain ⟨os', hos', hd⟩ := Option.map_eq_some_iff.1 hd
    rcases ofOutcomes_abort_report plan.settings plan.settings.missingIdentity b os' with
      ⟨d', hd', hreport, clean⟩ | ⟨f, _, _, _, _, hf, _⟩
    · obtain rfl : d = d' := Except.ok.inj (hd.symm.trans hd')
      rw [going]
      exact ⟨(congrArg (Option.map _) hos').trans (congrArg some hreport), clean⟩
    · rw [hf] at hd
      cases hd
  case failed =>
    intro b' f _ hf
    rw [going] at hf
    obtain ⟨os', hos', hf⟩ := Option.map_eq_some_iff.1 hf
    rcases ofOutcomes_abort_report plan.settings plan.settings.missingIdentity b os' with
      ⟨d, hd, -⟩ | ⟨g, d, failure, others, causes, hg, hreport, rest⟩
    · rw [hd] at hf
      cases hf
    · obtain rfl : f = g := Except.error.inj (hf.symm.trans hg)
      rw [going]
      exact ⟨d, failure, others, causes,
        (congrArg (Option.map _) hos').trans (congrArg some hreport), rest⟩
  case toItsEnd =>
    intro b' hb' i host hi
    obtain rfl : b = b' := by simpa [boot] using hb'
    have apart : (plan.withFleetPolicy .abort).inventory.hosts.Nodup := nodup
    have own := callsOn_fleetHost schedule loc apart (bootstrapRun_under .abort _ ▸ h) hb hi
    rwa [withFleetPolicy, fleetHostRun_under] at own

/-- A run that is over with the bootstrap phase is the same under both policies. -/
theorem abortsAsReported_self {run : Run σ (Except Failure NodeDirectory)}
    (ended : ∀ b, (plan.deployBootstrap remote patience s t).result ≠ some (.ok b))
    (refused : ∀ f, (plan.deployBootstrap remote patience s t).result = some (.error f) →
      run.result = some (.error f))
    (none : ∀ d, run.result ≠ some (.ok d)) :
    plan.AbortsAsReported remote patience s t run run where
  calls _ := rfl
  cut := Iff.rfl
  refused f hf := ⟨refused f hf, refused f hf⟩
  succeeded d hd := absurd hd (none d)
  failed b _ hb _ := absurd hb (ended b)
  toItsEnd b hb := absurd hb (ended b)

/-- Two runs in one schedule. -/
theorem abortsAsReported_of_same (schedule : Schedule) (patience : Nat) (s : σ) (t : Nat)
    (loc : remote.IsLocal view) (nodup : plan.inventory.hosts.Nodup) :
    plan.AbortsAsReported remote patience s t
      ((plan.withFleetPolicy .abort).deploy remote schedule patience s t)
      ((plan.withFleetPolicy .report).deploy remote schedule patience s t) := by
  have boot : (plan.deployBootstrap remote patience s t).result =
      (plan.bootstrapRun remote patience s t).result.map
        (BootstrapNodes.ofOutcomes plan.settings.missingIdentity) := rfl
  cases h : (plan.bootstrapRun remote patience s t).result with
  | none =>
    rw [h] at boot
    rw [withFleetPolicy, withFleetPolicy, deploy_under_of_cut h, deploy_under_of_cut h]
    exact abortsAsReported_self (by simp [boot]) (by simp [boot]) nofun
  | some os =>
    rw [h, Option.map_some] at boot
    cases hb : BootstrapNodes.ofOutcomes plan.settings.missingIdentity os with
    | error f =>
      rw [hb] at boot
      rw [withFleetPolicy, withFleetPolicy, deploy_under_of_refused h hb,
        deploy_under_of_refused h hb]
      exact abortsAsReported_self (by simp [boot]) (by simp [boot]) nofun
    | ok b => exact abortsAsReported_of_passed schedule loc nodup h hb

/-- **Aborting and reporting differ in the report only.** Where hosts do not see
each other, a run that aborts and one that reports make the same calls on every
host, in any two schedules. What one aborts for is what the other reports
first. -/
theorem deploy_abort_report (schedule schedule' : Schedule) (patience : Nat) (s : σ) (t : Nat)
    (loc : remote.IsLocal view) (nodup : plan.inventory.hosts.Nodup) :
    plan.AbortsAsReported remote patience s t
      ((plan.withFleetPolicy .abort).deploy remote schedule patience s t)
      ((plan.withFleetPolicy .report).deploy remote schedule' patience s t) := by
  have fleet : (plan.withFleetPolicy .report).fleet.hosts.Nodup := nodup_fleet nodup
  obtain ⟨calls, cut, refused, succeeded, failed, toItsEnd⟩ :=
    abortsAsReported_of_same schedule patience s t loc nodup
  have same : ((plan.withFleetPolicy .report).deploy remote schedule patience s t).result =
        ((plan.withFleetPolicy .report).deploy remote schedule' patience s t).result ∧
      SameCalls ((plan.withFleetPolicy .report).deploy remote schedule patience s t)
        ((plan.withFleetPolicy .report).deploy remote schedule' patience s t) :=
    deploy_schedule (.inr ⟨loc, fleet⟩)
  obtain ⟨result, same⟩ := same
  rw [result] at cut refused succeeded failed
  exact ⟨fun host => (calls host).trans (same host), cut, refused, succeeded, failed, toItsEnd⟩

/-- The second fleet host of the small plan is not there. -/
theorem deploy_abort_report_small :
    (Script.remote Script.small).IsLocal Script.memory? ∧ small.inventory.hosts.Nodup ∧
    ∃ f d failure others,
      ((small.withFleetPolicy .abort).deploy (Script.remote Script.small) .earliest 1 [] 0).result =
        some (.error f) ∧
      ((small.withFleetPolicy .report).deploy (Script.remote Script.small) .oneByOne 1 []
        0).result = some (.ok d) ∧
      d.failures = failure :: others ∧ f.cause.message = "Fleet host c failed" := by
  have loc := Script.remote_isLocal Script.small
  have nodup : small.inventory.hosts.Nodup := by decide
  have accepted : (small.deployBootstrap (Script.remote Script.small) 1 [] 0).result.map
      Except.isOk = some true := by
    decide +kernel
  obtain ⟨r, hr, hok⟩ := Option.map_eq_some_iff.1 accepted
  obtain ⟨b, rfl⟩ : ∃ b, r = .ok b := by
    cases r with
    | error f => cases hok
    | ok b => exact ⟨b, rfl⟩
  have aborted : ((small.withFleetPolicy .abort).deployEach (Script.remote Script.small) 1 []
      0).result.map (Except.mapError fun f => f.cause.message) =
        some (.error "Fleet host c failed") := by
    decide +kernel
  rw [← (deploy_eq_each .earliest loc (by decide)).1] at aborted
  obtain ⟨r, habort, hmessage⟩ := Option.map_eq_some_iff.1 aborted
  cases r with
  | ok d => cases hmessage
  | error f =>
    obtain ⟨d, failure, others, causes, hreport, hfailures, -, -⟩ :=
      (deploy_abort_report .earliest .oneByOne 1 [] 0 loc nodup).failed b f hr habort
    exact ⟨loc, nodup, f, d, failure, others, habort, hreport, hfailures, Except.error.inj hmessage⟩

end DeploymentPlan
end Rollout
