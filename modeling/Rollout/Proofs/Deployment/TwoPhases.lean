/-
# Two phases

The fleet is reached only after the bootstrap hosts, and only if all of them are
accepted. Every compose command on a fleet host is told one address, the tcp
address of the first container of the first bootstrap host:

| | variables of a compose command |
| --- | --- |
| on a bootstrap host | `HOST`, `TAG` |
| on a fleet host | `HOST`, `TAG`, `BOOTSTRAP` |

Main statement: `DeploymentPlan.deploy_two_phases`.
-/

import Rollout.Proofs.Deployment.Run
import Rollout.Proofs.Remote.Barrier

namespace Rollout

/-- A compose command of a phase on a host, with these variables. -/
def ComposeCall (settings : Settings) (phase : PhasePlan) (host : String)
    (environment : List (String × String)) (c : Call) : Prop :=
  ∃ subcommand ∈ composeSubcommands,
    c = ⟨host, .run
      (settings.composeCommand ++ " -f " ++ phase.compose.fileName ++ " " ++ subcommand)
      environment⟩

/-- A call of a phase on a host: a compose command with these variables, or a
plain call, which has none. -/
def PhaseCall (settings : Settings) (phase : PhasePlan) (host : String)
    (environment : List (String × String)) (c : Call) : Prop :=
  ComposeCall settings phase host environment c ∨ (PlainCall host c ∧ c.environment = [])

/-- The calls of a host are those of its phase, with its exports. -/
theorem HostCall.phaseCall {settings : Settings} {phase : PhasePlan} {env : HostEnvironment}
    {c : Call} (h : HostCall settings phase env c) :
    PhaseCall settings phase env.host env.exports c := by
  rcases h with ⟨subcommand, mem, rfl⟩ | h
  · exact .inl ⟨subcommand, mem, rfl⟩
  · exact .inr ⟨h, h.environment_eq⟩

/-! ### The first container -/

section

variable {σ ε ε' α β : Type}

/-- A program with another way to end runs as before. -/
theorem Program.run_ending (remote : Remote σ) (position : Nat) (f : Except ε α → Except ε' β)
    (p : Program ε α) (s : σ) (t : Nat) :
    (p.ending f).run remote position s t = (p.run remote position s t).map f := by
  induction p generalizing s t with
  | ended r => rfl
  | unfinished => rfl
  | call c next ih =>
    rw [ending, run, run]
    dsimp only
    rw [ih]
    rfl
  | sleep ms p ih => exact ih s (t + ms)
  | clock next ih => exact ih t s t

/-- The first of several tasks in order runs from where they begin. -/
theorem executeInOrder_head (remote : Remote σ) (k : Nat) (task : Task ε α)
    (tasks : List (Task ε α)) (s : σ) (t : Nat) :
    (∀ e ∈ (task.program.run remote k s t).events,
      e ∈ (executeInOrder remote k (task :: tasks) s t).events) ∧
    ∀ os, (executeInOrder remote k (task :: tasks) s t).result = some os →
      ∃ r, (task.program.run remote k s t).result = some r ∧ os.head? = some ⟨task.host, r⟩ := by
  rw [executeInOrder, Run.andThen]
  cases hr : (task.program.run remote k s t).result with
  | none =>
    simp only [Task.run, hr, Option.map_none]
    exact ⟨fun e he => by simp [he], fun os hos => by cases hos⟩
  | some r =>
    simp only [Task.run, hr, Option.map_some, Run.after_events, Run.after_result]
    refine ⟨fun e he => by simp [he], fun os hos => ⟨r, rfl, ?_⟩⟩
    split at hos
    · rw [Run.map_result] at hos
      obtain ⟨rest, -, rfl⟩ := Option.map_eq_some_iff.1 hos
      rfl
    · obtain rfl := Option.some.inj hos
      rfl

end

namespace DeploymentPlan

variable {σ : Type} (plan : DeploymentPlan) (remote : Remote σ) (patience : Nat) (s : σ) (t : Nat)

/-- The tcp address of the first container that the first bootstrap host lists,
if that host succeeds. -/
def bootstrapAddress? : Option Multiaddr :=
  match plan.bootstrap.hosts with
  | [] => none
  | host :: _ =>
    match ((plan.bootstrap.deployNodes plan.settings patience 0
      ⟨host, plan.settings.tag, none⟩).run remote 0 s t).result with
    | some (.ok (info :: _)) => some (.ofPort host info.ports.tcp Transport.tcp.above)
    | _ => none

/-- The events show the address: the first bootstrap host lists a container
first, and the published ports of that container are read. -/
def ShowsAddress (es : List Event) (address : Multiaddr) : Prop :=
  ∃ host hosts id ids listing output ports listed read,
    plan.bootstrap.hosts = host :: hosts ∧
    .returned 0 listed (composeCall plan.settings plan.bootstrap ⟨host, plan.settings.tag, none⟩
      "ps -q") (.ok listing) ∈ es ∧
    listedIds listing = id :: ids ∧
    .returned 0 read (Container.portsCall host id) (.ok output) ∈ es ∧
    Container.readPorts output = .ok ports ∧
    address = .ofPort host ports.tcp Transport.tcp.above

/-- A bootstrap host fails, or has a node without an identity where that is
refused. -/
def BootstrapFails : Prop :=
  ∃ os, (plan.bootstrapRun remote patience s t).result = some os ∧
    ∃ o ∈ os, (∃ f, o.result = .error f) ∨
      (plan.settings.missingIdentity = .refuse ∧
        ∃ nodes, o.result = .ok nodes ∧ ∃ n ∈ nodes.nodes, n.peerId = none)

variable {plan remote patience s t}

/-- An address that some events show is shown by more events too. -/
theorem showsAddress_mono {es fs : List Event} {address : Multiaddr}
    (h : plan.ShowsAddress es address) (hle : ∀ e ∈ es, e ∈ fs) : plan.ShowsAddress fs address := by
  obtain ⟨host, hosts, id, ids, listing, output, ports, listed, read, hhosts, hl, hids, hr, hp,
    ha⟩ := h
  exact ⟨host, hosts, id, ids, listing, output, ports, listed, read, hhosts, hle _ hl, hids,
    hle _ hr, hp, ha⟩

/-- The tasks of a phase begin with that of its first host. -/
theorem tasks_cons {phase : PhasePlan} {host : String} {hosts : List String}
    (h : phase.hosts = host :: hosts) (settings : Settings) (patience : Nat)
    (bootstrap : Option Multiaddr) :
    ∃ tasks, phase.tasks settings patience bootstrap =
      ⟨host, phase.hostProgram settings patience bootstrap 0 host⟩ :: tasks := by
  rw [PhasePlan.tasks, h]
  exact ⟨_, rfl⟩

/-- **The bootstrap address is the one that the events show.** -/
theorem showsAddress_of_bootstrapAddress? {address : Multiaddr}
    (h : plan.bootstrapAddress? remote patience s t = some address) :
    plan.ShowsAddress (plan.bootstrapRun remote patience s t).events address := by
  unfold bootstrapAddress? at h
  split at h
  · cases h
  rename_i host hosts hhosts
  split at h
  case h_2 => cases h
  rename_i info infos hresult
  obtain rfl := Option.some.inj h
  obtain ⟨xs, events, runs⟩ := (plan.bootstrap.deployNodes plan.settings patience 0
    ⟨host, plan.settings.tag, none⟩).runs_run remote 0 s t
  rw [hresult] at runs
  obtain ⟨-, shown, x, hx, listing, hcall, reply, hids⟩ := PhasePlan.deployNodes_ok runs
  obtain ⟨y, z, output, logs, infix_, ycall, yreply, hports, -⟩ := shown info List.mem_cons_self
  obtain ⟨tasks, htasks⟩ := tasks_cons hhosts plan.settings patience none
  have mem : ∀ x ∈ xs, ∀ e ∈ x.events 0, e ∈ (plan.bootstrapRun remote patience s t).events := by
    intro x hx e he
    rw [bootstrapRun, htasks]
    refine (executeInOrder_head remote 0 _ tasks s t).1 e ?_
    rw [PhasePlan.hostProgram, Program.run_ending, Run.map_events]
    change e ∈ ((plan.bootstrap.deployNodes plan.settings patience 0 _).run remote 0 s t).events
    rw [events]
    exact List.mem_flatMap.2 ⟨x, hx, he⟩
  refine ⟨host, hosts, info.id, infos.map ContainerInfo.id, listing, output, info.ports,
    x.returned, y.returned, hhosts, mem x hx _ ?_, hids.symm, mem y (infix_.subset (by simp)) _ ?_,
    hports, rfl⟩
  · rw [← hcall, ← reply]
    simp [Exchange.events]
  · rw [← ycall, ← yreply]
    simp [Exchange.events]

/-- **The fleet is told the bootstrap address.** -/
theorem bootstrapAddress?_of_passed {os : List (Outcome Failure HostNodes)} {b : BootstrapNodes}
    (h : (plan.bootstrapRun remote patience s t).result = some os)
    (hb : BootstrapNodes.ofOutcomes plan.settings.missingIdentity os = .ok b) :
    plan.bootstrapAddress? remote patience s t = some b.address := by
  obtain ⟨nodes, hos, hres, haddress, -⟩ := BootstrapNodes.ofOutcomes_ok hb
  cases hhosts : plan.bootstrap.hosts with
  | nil =>
    have none : plan.bootstrap.tasks plan.settings patience none = [] := by
      rw [PhasePlan.tasks, hhosts]
      rfl
    rw [bootstrapRun, none] at h
    obtain rfl := Option.some.inj h
    obtain rfl : nodes = [] := by simpa using hos
    cases hres
  | cons host hosts =>
    obtain ⟨tasks, htasks⟩ := tasks_cons hhosts plan.settings patience none
    rw [bootstrapRun, htasks] at h
    obtain ⟨r, hr, hhead⟩ := (executeInOrder_head remote 0 _ tasks s t).2 os h
    -- The first host has succeeded, so its program has ended with readings.
    obtain ⟨o, os, rfl⟩ : ∃ o os', os = o :: os' := by
      cases os with
      | nil => cases hhead
      | cons o os => exact ⟨o, os, rfl⟩
    obtain rfl : o = ⟨host, r⟩ := by simpa using hhead
    obtain ⟨first, nodes, rfl⟩ : ∃ first nodes', nodes = first :: nodes' := by
      cases nodes with
      | nil => cases hos
      | cons first nodes => exact ⟨first, nodes, rfl⟩
    obtain rfl : r = .ok first := (List.cons.inj hos).1
    rw [PhasePlan.hostProgram, Program.run_ending, Run.map_result] at hr
    obtain ⟨r', hrun, hr'⟩ := Option.map_eq_some_iff.1 hr
    obtain ⟨infos, rfl, rfl⟩ : ∃ infos, r' = .ok infos ∧
        first = ⟨host, infos.map ContainerInfo.node⟩ := by
      cases r' with
      | error f => cases hr'
      | ok infos => exact ⟨infos, rfl, (Except.ok.inj hr').symm⟩
    obtain ⟨xs, -, runs⟩ := (plan.bootstrap.deployNodes plan.settings patience (UInt64.ofNat 0)
      ⟨host, plan.settings.tag, none⟩).runs_run remote 0 s t
    rw [hrun] at runs
    obtain ⟨count, -⟩ := PhasePlan.deployNodes_ok runs
    cases infos with
    | nil =>
      have zero : plan.bootstrap.layout.perHost.toNat = 0 := count.symm
      exact absurd (UInt64.toNat_inj.1 zero) plan.bootstrap.layout.perHost_ne_zero
    | cons info infos =>
      have hrun' : ((plan.bootstrap.deployNodes plan.settings patience 0
          ⟨host, plan.settings.tag, none⟩).run remote 0 s t).result =
          some (.ok (info :: infos)) := hrun
      have hfirst : info.node.resolve host = b.first := by
        simp only [resolveAll, List.flatMap_cons, HostNodes.resolved, List.map_cons,
          List.cons_append] at hres
        exact (List.cons.inj hres).1
      rw [bootstrapAddress?, hhosts]
      simp only [hrun']
      rw [← haddress, ← hfirst]
      rfl

/-- A bootstrap phase that fails is not accepted. -/
theorem not_bootstrapFails_of_passed {os : List (Outcome Failure HostNodes)} {b : BootstrapNodes}
    (h : (plan.bootstrapRun remote patience s t).result = some os)
    (hb : BootstrapNodes.ofOutcomes plan.settings.missingIdentity os = .ok b) :
    ¬ plan.BootstrapFails remote patience s t := by
  rintro ⟨os', hos', o, ho, hfails⟩
  obtain rfl : os = os' := by simpa [h] using hos'
  obtain ⟨hosts, hos, -, -, accepted⟩ := BootstrapNodes.ofOutcomes_ok hb
  have mem : o.result ∈ hosts.map Except.ok := hos ▸ List.mem_map_of_mem ho
  obtain ⟨nodes, hnodes, hok⟩ := List.mem_map.1 mem
  rcases hfails with ⟨f, hf⟩ | ⟨policy, nodes', hok', n, hn, anonymous⟩
  · rw [hf] at hok
    cases hok
  · obtain rfl : nodes = nodes' := by simpa [hok'] using hok
    have resolved : n.resolve nodes.host ∈ resolveAll hosts :=
      List.mem_flatMap.2 ⟨nodes, hnodes, List.mem_map_of_mem hn⟩
    exact accepted policy _ resolved anonymous

/-! ### The phases of a run -/

/-- **Every call of the bootstrap phase** is on one of its hosts, and exports no bootstrap
address. -/
theorem bootstrapRun_phaseCall {e : Event} {c : Call}
    (he : e ∈ (plan.bootstrapRun remote patience s t).events) (hc : e.call? = some c) :
    c.host ∈ plan.bootstrap.hosts ∧ PhaseCall plan.settings plan.bootstrap c.host
      [("HOST", c.host), ("TAG", plan.settings.tag)] c := by
  obtain ⟨host, hhost, call⟩ := PhasePlan.execute_hostCall remote .inOrder s t e he c hc
  obtain rfl : c.host = host := call.host_eq
  exact ⟨List.mem_of_getElem? hhost, call.phaseCall⟩

/-- **Every call of the fleet** is on one of its hosts, and compose has the bootstrap address with
it. -/
theorem fleetRun_phaseCall {schedule : Schedule} {address : Multiaddr} {e : Event} {c : Call}
    (he : e ∈ (plan.fleetRun remote schedule patience s t address).events)
    (hc : e.call? = some c) :
    c.host ∈ plan.fleet.hosts ∧ PhaseCall plan.settings plan.fleet c.host
      [("HOST", c.host), ("TAG", plan.settings.tag), ("BOOTSTRAP", address.text)] c := by
  obtain ⟨host, hhost, call⟩ := PhasePlan.execute_hostCall remote (.together schedule) s t e he c hc
  obtain rfl : c.host = host := call.host_eq
  exact ⟨List.mem_of_getElem? hhost, call.phaseCall⟩

/-- What the two phases of a run are to each other. -/
structure TwoPhases (plan : DeploymentPlan) (remote : Remote σ) (patience : Nat) (s : σ) (t : Nat)
    (run : Run σ (Except Failure NodeDirectory)) : Prop where
  /-- Every call on a bootstrap host has returned before one on a fleet host is issued. -/
  barrier : Barrier plan.bootstrap.hosts plan.fleet.hosts run.events
  unreached : plan.BootstrapFails remote patience s t →
    ∀ c ∈ run.calls, c.host ∉ plan.fleet.hosts
  onBootstrap : ∀ c ∈ run.calls, c.host ∈ plan.bootstrap.hosts →
    PhaseCall plan.settings plan.bootstrap c.host
      [("HOST", c.host), ("TAG", plan.settings.tag)] c
  onFleet : ∀ c ∈ run.calls, c.host ∈ plan.fleet.hosts →
    ∃ address, plan.bootstrapAddress? remote patience s t = some address ∧
      PhaseCall plan.settings plan.fleet c.host
        [("HOST", c.host), ("TAG", plan.settings.tag), ("BOOTSTRAP", address.text)] c
  nowhereElse : ∀ c ∈ run.calls, c.host ∈ plan.bootstrap.hosts ∨ c.host ∈ plan.fleet.hosts
  shown : ∀ address, plan.bootstrapAddress? remote patience s t = some address →
    plan.ShowsAddress run.events address
  directory : ∀ d, run.result = some (.ok d) →
    ∃ address, plan.bootstrapAddress? remote patience s t = some address ∧
      d.bootstrap.tcp.multiaddr = some address

/-- Each call of a run is in one of its events. -/
theorem exists_event_of_mem_calls {β : Type} {run : Run σ β} {c : Call} (h : c ∈ run.calls) :
    ∃ e ∈ run.events, e.call? = some c := by
  obtain ⟨e, he, hc⟩ := List.mem_filterMap.1 h
  exact ⟨e, he, Event.call?_of_issuedCall? hc⟩

/-- No host is in both phases of a valid plan. -/
theorem disjoint_of_validate (valid : plan.inventory.validate = .ok ()) {host : String}
    (hb : host ∈ plan.bootstrap.hosts) : host ∉ plan.fleet.hosts := by
  have nodup : (plan.bootstrap.hosts ++ plan.fleet.hosts).Nodup :=
    (Inventory.validate_eq_ok.1 valid).2
  exact fun hf => (List.nodup_append.1 nodup).2.2 host hb host hf rfl

/-- A run that is over with the bootstrap phase. -/
theorem twoPhases_of_bootstrapRun (valid : plan.inventory.validate = .ok ())
    {run : Run σ (Except Failure NodeDirectory)}
    (events : run.events = (plan.bootstrapRun remote patience s t).events)
    (result : ∀ d, run.result ≠ some (.ok d)) : plan.TwoPhases remote patience s t run := by
  have calls : ∀ c ∈ run.calls, c.host ∈ plan.bootstrap.hosts ∧
      PhaseCall plan.settings plan.bootstrap c.host
        [("HOST", c.host), ("TAG", plan.settings.tag)] c := by
    intro c hc
    obtain ⟨e, he, hec⟩ := exists_event_of_mem_calls hc
    exact bootstrapRun_phaseCall (events ▸ he) hec
  constructor
  case barrier =>
    intro before after i now c h hc
    have he : .issued i now c ∈ (plan.bootstrapRun remote patience s t).events := by
      rw [← events, h]
      simp
    exact absurd hc (disjoint_of_validate valid (bootstrapRun_phaseCall he rfl).1)
  case unreached => exact fun _ c hc => disjoint_of_validate valid (calls c hc).1
  case onBootstrap => exact fun c hc _ => (calls c hc).2
  case onFleet => exact fun c hc hf => absurd hf (disjoint_of_validate valid (calls c hc).1)
  case nowhereElse => exact fun c hc => .inl (calls c hc).1
  case shown => exact fun address h => events ▸ showsAddress_of_bootstrapAddress? h
  case directory => exact fun d hd => absurd hd (result d)

/-- A run that goes on with the fleet. -/
theorem twoPhases_of_passed {schedule : Schedule} (valid : plan.inventory.validate = .ok ())
    {os : List (Outcome Failure HostNodes)} {b : BootstrapNodes}
    (h : (plan.bootstrapRun remote patience s t).result = some os)
    (hb : BootstrapNodes.ofOutcomes plan.settings.missingIdentity os = .ok b) :
    plan.TwoPhases remote patience s t (((plan.fleetRunAfter remote schedule patience s t
      b.address).map (NodeDirectory.ofOutcomes plan.settings b)).after
        (plan.bootstrapRun remote patience s t).events) := by
  have address := bootstrapAddress?_of_passed h hb
  -- Every call belongs to the phase whose events it is among.
  have calls : ∀ c ∈ (((plan.fleetRunAfter remote schedule patience s t b.address).map
      (NodeDirectory.ofOutcomes plan.settings b)).after
        (plan.bootstrapRun remote patience s t).events).calls,
      (c.host ∈ plan.bootstrap.hosts ∧ PhaseCall plan.settings plan.bootstrap c.host
        [("HOST", c.host), ("TAG", plan.settings.tag)] c) ∨
      (c.host ∈ plan.fleet.hosts ∧ PhaseCall plan.settings plan.fleet c.host
        [("HOST", c.host), ("TAG", plan.settings.tag), ("BOOTSTRAP", b.address.text)] c) := by
    intro c hc
    obtain ⟨e, he, hec⟩ := exists_event_of_mem_calls hc
    rcases List.mem_append.1 he with he | he
    · exact .inl (bootstrapRun_phaseCall he hec)
    · exact .inr (fleetRun_phaseCall he hec)
  constructor
  case barrier =>
    have first := executeInOrder_inOrder remote 0
      (plan.bootstrap.tasks plan.settings patience none) s t
    refine .append first.settled first.returnedBy (executeTogether_issuedFrom _ _ _ _ _) ?_ ?_
    · exact fun e he c hc => disjoint_of_validate valid (bootstrapRun_phaseCall he hc).1
    · exact fun e he c hc hhost => disjoint_of_validate valid hhost (fleetRun_phaseCall he hc).1
  case unreached => exact fun fails => absurd fails (not_bootstrapFails_of_passed h hb)
  case onBootstrap =>
    intro c hc hhost
    rcases calls c hc with ⟨-, call⟩ | ⟨hf, -⟩
    · exact call
    · exact absurd hf (disjoint_of_validate valid hhost)
  case onFleet =>
    intro c hc hhost
    rcases calls c hc with ⟨hf, -⟩ | ⟨-, call⟩
    · exact absurd hhost (disjoint_of_validate valid hf)
    · exact ⟨b.address, address, call⟩
  case nowhereElse => exact fun c hc => (calls c hc).imp And.left And.left
  case shown =>
    exact fun a ha => showsAddress_mono (showsAddress_of_bootstrapAddress? ha)
      fun e he => List.mem_append_left _ he
  case directory =>
    intro d hd
    obtain ⟨fleet, -, hd⟩ := Option.map_eq_some_iff.1 hd
    obtain ⟨_, _, _, haddress, _⟩ := BootstrapNodes.ofOutcomes_ok hb
    unfold NodeDirectory.ofOutcomes at hd
    split at hd
    · cases hd
    · obtain rfl := Except.ok.inj hd
      exact ⟨b.address, address, haddress⟩

/-- **The fleet comes second, and with one address.** Whatever the remote does
and the schedule chooses, the bootstrap phase is over when the fleet is reached,
the fleet is not reached when the bootstrap phase fails, and every call has the
environment of its phase. -/
theorem deploy_two_phases (schedule : Schedule) (valid : plan.inventory.validate = .ok ()) :
    plan.TwoPhases remote patience s t (plan.deploy remote schedule patience s t) := by
  have progress := plan.deploy_progress remote schedule patience s t
  generalize plan.deploy remote schedule patience s t = run at progress ⊢
  cases progress with
  | cut h => exact twoPhases_of_bootstrapRun valid rfl fun d hd => by cases hd
  | refused h hf => exact twoPhases_of_bootstrapRun valid rfl fun d hd => by cases hd
  | passed h hb => exact twoPhases_of_passed valid h hb

/-- The hosts of the small plan are valid, and its deployment goes through both phases. -/
theorem deploy_two_phases_small : small.inventory.validate = .ok () ∧
    small.TwoPhases (Script.remote Script.small) 1 [] 0
      (small.deploy (Script.remote Script.small) .earliest 1 [] 0) :=
  ⟨rfl, deploy_two_phases .earliest rfl⟩

end DeploymentPlan
end Rollout
