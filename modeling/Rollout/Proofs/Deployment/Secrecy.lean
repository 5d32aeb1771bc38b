/-
# Keypairs flow into staged files only

Two plans that differ in their keypairs alone, each with as many as the other,
cannot be told apart on hosts that ignore the contents of files:

| of the two runs | is the same |
| --- | --- |
| the calls | all but the contents of the files they write |
| the result | the directory, or the words for every cause of the failure |

So no keypair shows in a command, in a variable, in an error or in a report.

Main statement: `DeploymentPlan.deploy_secret`.
-/

import Rollout.Proofs.Deployment.Run
import Rollout.Proofs.Remote.Contents
import Rollout.Proofs.Remote.Script

namespace Rollout

/-- The phase with other keypairs. -/
def PhasePlan.withKeystore (phase : PhasePlan) (keystore : Keystore) : PhasePlan :=
  { phase with keystore := keystore }

/-- The plan with other keypairs. -/
def DeploymentPlan.withKeystores (plan : DeploymentPlan) (bootstrap fleet : Keystore) :
    DeploymentPlan :=
  { plan with
    bootstrap := plan.bootstrap.withKeystore bootstrap
    fleet := plan.fleet.withKeystore fleet }

/-! ### What is shown of a failure -/

namespace Failure

/-- A failure under an outer cause is told with the words of that first. -/
theorem chain_within (f : Failure) (outer : Cause) :
    (f.within outer).chain = outer.message :: f.chain :=
  rfl

/-- The words for a call that fails do not tell its contents. -/
theorem chain_ofCall {c c' : Call} (h : c.masked = c'.masked) (e : CallError) :
    (ofCall c e).chain = (ofCall c' e).chain := by
  have text : c.text = c'.text := by rw [← c.text_masked, ← c'.text_masked, h]
  cases e with
  | exited status stderr =>
    change [c.text ++ _ ++ _ ++ _ ++ _] = [c'.text ++ _ ++ _ ++ _ ++ _]
    rw [text]
  | notStarted program error =>
    change [_ ++ _ ++ _ ++ c.text, _] = [_ ++ _ ++ _ ++ c'.text, _]
    rw [text]

end Failure

open Program

/-- Calls one after the other that are the same without contents. -/
theorem performAll_matches : ∀ {cs cs' : List Call}, cs.map Call.masked = cs'.map Call.masked →
    (performAll cs).Matches Failure.chain (performAll cs')
  | [], [], _ => .refl _
  | c :: cs, c' :: cs', h => by
    rw [List.map_cons, List.map_cons] at h
    obtain ⟨first, rest⟩ := List.cons.inj h
    exact (Matches.perform first (Failure.chain_ofCall first)).bind fun _ => performAll_matches rest

/-! ### One host -/

namespace PhasePlan

variable {phase : PhasePlan} {keystore : Keystore}

/-- The index of a keypair does not depend on the keypairs. -/
theorem index_withKeystore (host container : UInt64) :
    (phase.withKeystore keystore).index host container = phase.index host container :=
  rfl

/-- Where a container has no keypair in one keystore, it has none in the other. -/
theorem keypairOf_withKeystore (size : keystore.size = phase.keystore.size) (position : UInt64)
    (host : String) (place : Nat) (container : String) :
    (∃ f, phase.keypairOf position host place container = .error f ∧
      (phase.withKeystore keystore).keypairOf position host place container = .error f) ∨
    ∃ index key key', phase.keypairOf position host place container = .ok (index, key) ∧
      (phase.withKeystore keystore).keypairOf position host place container = .ok (index, key') := by
  simp only [keypairOf, index_withKeystore]
  cases phase.index position (UInt64.ofNat place) with
  | error e => exact .inl ⟨_, rfl, rfl⟩
  | ok index =>
    dsimp only [withKeystore, Keystore.keypair, Keystore.get?]
    by_cases inside : index.toNat < phase.keystore.keypairs.length
    · have inside' : index.toNat < keystore.keypairs.length := Nat.lt_of_lt_of_eq inside size.symm
      rw [List.getElem?_eq_getElem inside, List.getElem?_eq_getElem inside']
      exact .inr ⟨index, _, _, rfl, rfl⟩
    · have outside' : ¬ index.toNat < keystore.keypairs.length := fun h =>
        inside (Nat.lt_of_lt_of_eq h size)
      rw [List.getElem?_eq_none (Nat.le_of_not_lt inside),
        List.getElem?_eq_none (Nat.le_of_not_lt outside'), size]
      exact .inl ⟨_, rfl, rfl⟩

/-- Equipping a container differs in the keypair that is written only. -/
theorem equip_matches (size : keystore.size = phase.keystore.size) (position : UInt64)
    (host configName : String) (place : Nat) (container : String) :
    (phase.equip position host configName place container).Matches Failure.chain
      ((phase.withKeystore keystore).equip position host configName place container) := by
  rcases keypairOf_withKeystore size position host place container with
    ⟨f, h, h'⟩ | ⟨index, key, key', h, h'⟩
  · rw [equip, equip, h, h']
    exact .refl _
  · rw [phase.equip_eq h rfl, (phase.withKeystore keystore).equip_eq h' rfl]
    exact performAll_matches rfl

/-- Equipping containers differs in the keypairs that are written only. -/
theorem equipAll_matches (size : keystore.size = phase.keystore.size) (position : UInt64)
    (host configName : String) : ∀ (place : Nat) (containers : List String),
      (phase.equipAll position host configName place containers).Matches Failure.chain
        ((phase.withKeystore keystore).equipAll position host configName place containers)
  | _, [] => .refl _
  | place, container :: containers =>
    (equip_matches size position host configName place container).bind fun _ =>
      equipAll_matches size position host configName (place + 1) containers

/-- **Deployments of a host with other keypairs** differ in contents only. -/
theorem deploy_matches (size : keystore.size = phase.keystore.size) (settings : Settings)
    (position : UInt64) (env : HostEnvironment) :
    (phase.deploy settings position env).Matches Failure.chain
      ((phase.withKeystore keystore).deploy settings position env) := by
  refine (Matches.refl _).bind fun _ => (Matches.refl _).bind fun _ => (Matches.refl _).bind
    fun _ => (Matches.refl _).bind fun _ => (Matches.refl _).bind fun configName =>
    (Matches.refl _).bind fun _ => (Matches.refl _).bind fun listing => (Matches.refl _).bind
    fun containers => ?_
  exact (equipAll_matches size position env.host configName 0 containers).bind fun _ => .refl _

/-- What is done for a host differs in the keypairs that are written only. -/
theorem hostProgram_matches (size : keystore.size = phase.keystore.size) (settings : Settings)
    (patience : Nat) (bootstrap : Option Multiaddr) (position : Nat) (host : String) :
    (phase.hostProgram settings patience bootstrap position host).Matches Failure.chain
      ((phase.withKeystore keystore).hostProgram settings patience bootstrap position host) := by
  refine ((deploy_matches size settings _ _).bind fun _ => .refl _).ending fun r r' h => ?_
  rcases mapError_eq_mapError h with ⟨infos, rfl, rfl⟩ | ⟨f, f', rfl, rfl, same⟩
  · rfl
  · refine congrArg Except.error ?_
    rw [Failure.chain_within, Failure.chain_within, same]

/-- The tasks of a phase match, host by host. -/
theorem tasks_matches (size : keystore.size = phase.keystore.size) (settings : Settings)
    (patience : Nat) (bootstrap : Option Multiaddr) :
    List.Forall₂ (Task.Matches Failure.chain) (phase.tasks settings patience bootstrap)
      ((phase.withKeystore keystore).tasks settings patience bootstrap) := by
  have tasksFrom : ∀ (hosts : List String) (position : Nat),
      List.Forall₂ (Task.Matches Failure.chain)
        (phase.tasksFrom settings patience bootstrap position hosts)
        ((phase.withKeystore keystore).tasksFrom settings patience bootstrap position hosts) := by
    intro hosts
    induction hosts with
    | nil => exact fun _ => .nil
    | cons host hosts ih =>
      exact fun position =>
        .cons ⟨rfl, hostProgram_matches size settings patience bootstrap position host⟩
          (ih (position + 1))
  exact tasksFrom phase.hosts 0

end PhasePlan

/-! ### The folds over outcomes -/

section

variable {os os' : List (Outcome Failure HostNodes)}

/-- Two outcomes that are shown the same. -/
theorem Outcome.of_shown {o o' : Outcome Failure HostNodes}
    (h : o.shown Failure.chain = o'.shown Failure.chain) :
    o.host = o'.host ∧ ((∃ nodes, o.result = .ok nodes ∧ o'.result = .ok nodes) ∨
      ∃ f f', o.result = .error f ∧ o'.result = .error f' ∧ f.chain = f'.chain) := by
  obtain ⟨host, result⟩ := Outcome.mk.inj h
  exact ⟨host, mapError_eq_mapError result⟩

/-- A phase that needs all of its hosts tells nothing of their failures but the words. -/
theorem allNodes_shown (phase : Phase)
    (h : os.map (Outcome.shown Failure.chain) = os'.map (Outcome.shown Failure.chain)) :
    (allNodes phase os).mapError Failure.chain = (allNodes phase os').mapError Failure.chain := by
  induction os generalizing os' with
  | nil =>
    obtain rfl := List.map_eq_nil_iff.1 h.symm
    rfl
  | cons o os ih =>
    obtain ⟨o', rest', rfl, first, rest⟩ := List.map_eq_cons_iff.1 h.symm
    obtain ⟨host, ⟨nodes, ho, ho'⟩ | ⟨f, f', ho, ho', same⟩⟩ := Outcome.of_shown first.symm
    · rw [allNodes, allNodes, ho, ho']
      dsimp only [within]
      rcases mapError_eq_mapError (ih rest.symm) with ⟨hosts, h, h'⟩ | ⟨f, f', h, h', same⟩
      · rw [h, h']
      · rw [h, h']
        exact congrArg Except.error same
    · rw [allNodes, allNodes, ho, ho', host]
      refine congrArg Except.error ?_
      rw [Failure.chain_within, Failure.chain_within, same]

/-- The nodes of the bootstrap phase, and the words for its failure, depend on what its hosts
show. -/
theorem BootstrapNodes.ofOutcomes_shown (policy : IdentityPolicy)
    (h : os.map (Outcome.shown Failure.chain) = os'.map (Outcome.shown Failure.chain)) :
    (ofOutcomes policy os).mapError Failure.chain =
      (ofOutcomes policy os').mapError Failure.chain := by
  unfold ofOutcomes
  rcases mapError_eq_mapError (allNodes_shown .bootstrap h) with
    ⟨hosts, h, h'⟩ | ⟨f, f', h, h', same⟩
  · rw [h, h']
  · rw [h, h']
    exact congrArg Except.error same

/-- What a policy accepts of a host, and the words where it does not, depend on what the host
shows. -/
theorem acceptedNodes_shown (policy : IdentityPolicy) {o o' : Outcome Failure HostNodes}
    (h : o.shown Failure.chain = o'.shown Failure.chain) :
    (acceptedNodes policy o).mapError Failure.chain =
      (acceptedNodes policy o').mapError Failure.chain := by
  obtain ⟨-, ⟨nodes, ho, ho'⟩ | ⟨f, f', ho, ho', same⟩⟩ := Outcome.of_shown h
  · rw [acceptedNodes, acceptedNodes, ho, ho']
  · rw [acceptedNodes, acceptedNodes, ho, ho']
    exact congrArg Except.error same

/-- **The nodes of the fleet and its failed hosts** depend on what its hosts show: a policy that
aborts takes the words of the first failure, and one that reports takes a line for each. -/
theorem fleetNodes_shown (settings : Settings)
    (h : os.map (Outcome.shown Failure.chain) = os'.map (Outcome.shown Failure.chain)) :
    (fleetNodes settings os).mapError Failure.chain =
      (fleetNodes settings os').mapError Failure.chain := by
  induction os generalizing os' with
  | nil =>
    obtain rfl := List.map_eq_nil_iff.1 h.symm
    rfl
  | cons o os ih =>
    obtain ⟨o', rest', rfl, first, rest⟩ := List.map_eq_cons_iff.1 h.symm
    have host := (Outcome.of_shown first.symm).1
    have later := mapError_eq_mapError (ih rest.symm)
    rw [fleetNodes, fleetNodes]
    rcases mapError_eq_mapError (acceptedNodes_shown settings.missingIdentity first.symm) with
      ⟨nodes, ho, ho'⟩ | ⟨f, f', ho, ho', same⟩
    · rw [ho, ho']
      dsimp only
      rcases later with ⟨r, h, h'⟩ | ⟨g, g', h, h', same⟩
      · rw [h, h']
      · rw [h, h']
        exact congrArg Except.error same
    · rw [ho, ho', host]
      cases settings.fleetFailure with
      | abort =>
        refine congrArg Except.error ?_
        rw [Failure.chain_within, Failure.chain_within, same]
      | report =>
        dsimp only
        rcases later with ⟨r, h, h'⟩ | ⟨g, g', h, h', same'⟩
        · -- The line of a failure is made of its chain.
          rw [h, h', Failure.line, Failure.line, same]
        · rw [h, h']
          exact congrArg Except.error same'

/-- The directory of a deployment depends on what the fleet hosts show. -/
theorem NodeDirectory.ofOutcomes_shown (settings : Settings) (bootstrap : BootstrapNodes)
    (h : os.map (Outcome.shown Failure.chain) = os'.map (Outcome.shown Failure.chain)) :
    (ofOutcomes settings bootstrap os).mapError Failure.chain =
      (ofOutcomes settings bootstrap os').mapError Failure.chain := by
  unfold ofOutcomes
  rcases mapError_eq_mapError (fleetNodes_shown settings h) with ⟨r, h, h'⟩ | ⟨f, f', h, h', same⟩
  · rw [h, h']
  · rw [h, h']
    exact congrArg Except.error same

end

/-! ### The whole run -/

namespace DeploymentPlan

variable {plan : DeploymentPlan} {bootstrap fleet : Keystore} {σ ν : Type} {remote : Remote σ}
  {view : σ → ν} {s s' : σ}

/-- **Two deployments that differ in their keypairs** differ in the calls that write them only, as
long as the remote does not look at what is written. -/
theorem deploy_matches (size : bootstrap.size = plan.bootstrap.keystore.size)
    (fleetSize : fleet.size = plan.fleet.keystore.size) (blind : remote.IgnoresContents view)
    (schedule : Schedule) (patience : Nat) (hs : view s = view s') (t : Nat) :
    (plan.deploy remote schedule patience s t).Matches view (Except.mapError Failure.chain)
      ((plan.withKeystores bootstrap fleet).deploy remote schedule patience s' t) := by
  have first : (plan.deployBootstrap remote patience s t).Matches view
      (Except.mapError Failure.chain)
      ((plan.withKeystores bootstrap fleet).deployBootstrap remote patience s' t) :=
    (executeInOrder_matches blind (PhasePlan.tasks_matches size plan.settings patience none) 0 hs
      t).map fun _ _ => BootstrapNodes.ofOutcomes_shown plan.settings.missingIdentity
  refine first.andThen fun r r' s s' t shown left => ?_
  rcases mapError_eq_mapError shown with ⟨b, rfl, rfl⟩ | ⟨f, f', rfl, rfl, same⟩
  · -- The fleet is told the same address.
    exact (executeTogether_matches blind
      (PhasePlan.tasks_matches fleetSize plan.settings patience (some b.address)) schedule left
      t).map fun _ _ => NodeDirectory.ofOutcomes_shown plan.settings b
  · exact ⟨congrArg (fun chain => some (Except.error chain)) same, rfl, rfl, left⟩

/-- **Keypairs flow into staged files only.** Two plans that differ in the text
of their keypairs have the same run on hosts that ignore the contents of files:
the same calls but for these contents, and the same directory or the same words
for the failure. -/
theorem deploy_secret (size : bootstrap.size = plan.bootstrap.keystore.size)
    (fleetSize : fleet.size = plan.fleet.keystore.size) (blind : remote.IgnoresContents view)
    (schedule : Schedule) (patience : Nat) (hs : view s = view s') (t : Nat) :
    (plan.deploy remote schedule patience s t).Matches view (Except.mapError Failure.chain)
        ((plan.withKeystores bootstrap fleet).deploy remote schedule patience s' t) ∧
      ∀ host, (callsOn host (plan.deploy remote schedule patience s t).calls).map Call.masked =
        (callsOn host ((plan.withKeystores bootstrap fleet).deploy remote schedule patience s'
          t).calls).map Call.masked := by
  have whole := deploy_matches size fleetSize blind schedule patience hs t
  exact ⟨whole, fun host => callsOn_masked whole.events host⟩

/-- The small plan with other keypairs on the small hosts. -/
theorem deploy_secret_small :
    (⟨["K"]⟩ : Keystore).size = small.bootstrap.keystore.size ∧
      (⟨["L", "M"]⟩ : Keystore).size = small.fleet.keystore.size ∧
      (Script.remote Script.small).IgnoresContents id ∧
      (small.deploy (Script.remote Script.small) .earliest 1 [] 0).Matches id
        (Except.mapError Failure.chain)
        ((small.withKeystores ⟨["K"]⟩ ⟨["L", "M"]⟩).deploy (Script.remote Script.small) .earliest 1
          [] 0) := by
  have size : (⟨["K"]⟩ : Keystore).size = small.bootstrap.keystore.size := rfl
  have fleetSize : (⟨["L", "M"]⟩ : Keystore).size = small.fleet.keystore.size := rfl
  have blind := Script.remote_ignoresContents Script.small
  exact ⟨size, fleetSize, blind, (deploy_secret size fleetSize blind .earliest 1 rfl 0).1⟩

end DeploymentPlan
end Rollout
