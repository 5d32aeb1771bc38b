/-
# What a plan has passed

A plan is made from a configuration and files only when these hold:

| of | holds |
| --- | --- |
| the inventory | there is a bootstrap host, and no host is listed twice |
| the node config | its path names a regular file, so it has a file name |
| each phase | it was made, so its keystore is large enough |

Main statement: `Configuration.checked_of_plan`.
-/

import Rollout.Configuration.Plan
import Rollout.Proofs.Deployment.Run
import Rollout.Proofs.Files.Named
import Rollout.Proofs.Keys.Layout

namespace Rollout

/-- The phase was made from what it holds. -/
def PhasePlan.IsMade (phase : PhasePlan) : Prop :=
  make phase.hosts phase.compose phase.keystore phase.layout.perHost = .ok phase

/-- A phase that was made from some parts is made again from its own. -/
theorem PhasePlan.isMade_of_make {hosts : List String} {compose : ComposeFile}
    {keystore : Keystore} {perHost : UInt64} {phase : PhasePlan}
    (h : make hosts compose keystore perHost = .ok phase) : phase.IsMade := by
  obtain ⟨rfl, rfl, rfl, -, rfl, -⟩ := of_make h
  exact h

/-- What every plan has passed. -/
structure DeploymentPlan.Checked (plan : DeploymentPlan) : Prop where
  bootstrap : plan.bootstrap.IsMade
  fleet : plan.fleet.IsMade
  hasBootstrap : plan.bootstrap.hosts ≠ []
  nodup : plan.inventory.hosts.Nodup
  /-- The path of the node config has a file name. -/
  configName : ∃ name, plan.settings.configName = .ok name

/-- The steps behind a phase. -/
theorem PhaseSource.plan_eq_ok {source : PhaseSource} {files : Files} {hosts : List String}
    {phase : PhasePlan} : source.plan files hosts = .ok phase ↔
      ∃ compose keystore, ComposeFile.load files source.compose = .ok compose ∧
        Keystore.load files source.keystore = .ok keystore ∧
        PhasePlan.make hosts compose keystore source.perHost = .ok phase := by
  constructor
  · intro h
    obtain ⟨compose, hcompose, h⟩ := bind_eq_ok.1 h
    obtain ⟨keystore, hkeystore, made⟩ := bind_eq_ok.1 h
    exact ⟨compose, keystore, mapError_eq_ok.1 hcompose, mapError_eq_ok.1 hkeystore, made⟩
  · rintro ⟨compose, keystore, hcompose, hkeystore, made⟩
    exact bind_eq_ok.2 ⟨compose, mapError_eq_ok.2 hcompose,
      bind_eq_ok.2 ⟨keystore, mapError_eq_ok.2 hkeystore, made⟩⟩

/-- A phase is made on the hosts that it is given. -/
theorem PhaseSource.isMade_of_plan {source : PhaseSource} {files : Files} {hosts : List String}
    {phase : PhasePlan} (h : source.plan files hosts = .ok phase) :
    phase.IsMade ∧ phase.hosts = hosts := by
  obtain ⟨compose, keystore, -, -, made⟩ := plan_eq_ok.1 h
  exact ⟨PhasePlan.isMade_of_make made, (PhasePlan.of_make made).1⟩

namespace Configuration

variable {c : Configuration} {files : Files} {environment tag : Option String}
  {plan : DeploymentPlan}

/-- **The steps behind a plan.** -/
theorem plan_eq_ok : c.plan files environment tag = .ok plan ↔
    ∃ inventory : Inventory, c.environment environment = .ok (plan.environment, inventory) ∧
      inventory.validate = .ok () ∧ files.isFile c.settings.configFile = true ∧
      c.bootstrap.plan files inventory.bootstrap = .ok plan.bootstrap ∧
      c.fleet.plan files inventory.nodes = .ok plan.fleet ∧
      plan.settings = c.settingsFor tag := by
  constructor
  · intro h
    obtain ⟨⟨name, inventory⟩, chosen, h⟩ := bind_eq_ok.1 h
    obtain ⟨_, valid, h⟩ := bind_eq_ok.1 h
    dsimp only at valid h
    cases hfile : files.isFile c.settings.configFile with
    | false => simp [hfile, bind, Except.bind, throw, throwThe, MonadExceptOf.throw] at h
    | true =>
      simp only [hfile, Bool.not_true, Bool.false_eq_true, if_false] at h
      obtain ⟨bootstrap, hbootstrap, h⟩ := bind_eq_ok.1 h
      obtain ⟨fleet, hfleet, h⟩ := bind_eq_ok.1 h
      obtain rfl := Except.ok.inj h
      exact ⟨inventory, mapError_eq_ok.1 chosen, mapError_eq_ok.1 valid, rfl,
        mapError_eq_ok.1 hbootstrap, mapError_eq_ok.1 hfleet, rfl⟩
  · rintro ⟨inventory, chosen, valid, hfile, hbootstrap, hfleet, hsettings⟩
    obtain ⟨name, settings, bootstrap, fleet⟩ := plan
    obtain rfl : settings = c.settingsFor tag := hsettings
    refine bind_eq_ok.2 ⟨(name, inventory), mapError_eq_ok.2 chosen,
      bind_eq_ok.2 ⟨(), mapError_eq_ok.2 valid, ?_⟩⟩
    simp only [hfile, Bool.not_true, Bool.false_eq_true, if_false]
    exact bind_eq_ok.2 ⟨bootstrap, mapError_eq_ok.2 hbootstrap,
      bind_eq_ok.2 ⟨fleet, mapError_eq_ok.2 hfleet, rfl⟩⟩

/-- **A plan has passed its checks**, where no path without a file name names a
regular file. -/
theorem checked_of_plan (named : ∀ path, files.isFile path = true →
      ∃ name, Path.fileName? path.toList = some name)
    (h : c.plan files environment tag = .ok plan) : plan.Checked := by
  obtain ⟨inventory, -, valid, file, bootstrap, fleet, settings⟩ := plan_eq_ok.1 h
  obtain ⟨hasBootstrap, nodup⟩ := Inventory.validate_eq_ok.1 valid
  obtain ⟨madeBootstrap, bootstrapHosts⟩ := PhaseSource.isMade_of_plan bootstrap
  obtain ⟨madeFleet, fleetHosts⟩ := PhaseSource.isMade_of_plan fleet
  constructor
  case bootstrap => exact madeBootstrap
  case fleet => exact madeFleet
  case hasBootstrap => rwa [bootstrapHosts]
  case nodup => rwa [DeploymentPlan.inventory, bootstrapHosts, fleetHosts]
  case configName =>
    obtain ⟨name, hname⟩ := named _ file
    have path : plan.settings.configFile = c.settings.configFile := by
      rw [settings]
      rfl
    exact ⟨String.ofList name, by rw [Settings.configName, path, hname]⟩

end Configuration
end Rollout
