/-
# The hosts of a phase

A phase is executed in order or together with any schedule, and each of its
hosts has the task at its own position. What the program of one host does is
therefore what is seen at that position of the execution.
-/

import Rollout.Deployment.Fleet
import Rollout.Proofs.Deployment.Host
import Rollout.Proofs.Deployment.Reading

namespace Rollout
namespace PhasePlan

variable {phase : PhasePlan} {settings : Settings} {patience : Nat} {bootstrap : Option Multiaddr}

/-- The tasks from a position on are those of the hosts, each at its own position. -/
theorem getElem?_tasksFrom (position : Nat) (hosts : List String) (i : Nat) :
    (phase.tasksFrom settings patience bootstrap position hosts)[i]? =
      hosts[i]?.map fun host =>
        ⟨host, phase.hostProgram settings patience bootstrap (position + i) host⟩ := by
  induction hosts generalizing position i with
  | nil => rfl
  | cons host hosts ih =>
    cases i with
    | zero => rfl
    | succ i =>
      rw [tasksFrom, List.getElem?_cons_succ, List.getElem?_cons_succ, ih,
        show position + 1 + i = position + (i + 1) by omega]

/-- The task at a position is that of the host there. -/
theorem getElem?_tasks (i : Nat) :
    (phase.tasks settings patience bootstrap)[i]? =
      phase.hosts[i]?.map fun host =>
        ⟨host, phase.hostProgram settings patience bootstrap i host⟩ := by
  rw [tasks, getElem?_tasksFrom, Nat.zero_add]

/-- A host has a task at its own position. -/
theorem getElem?_tasks_of_host {i : Nat} {host : String} (hi : phase.hosts[i]? = some host) :
    (phase.tasks settings patience bootstrap)[i]? =
      some ⟨host, phase.hostProgram settings patience bootstrap i host⟩ := by
  rw [getElem?_tasks, hi, Option.map_some]

/-- The tasks of a phase are for its hosts, in their order. -/
theorem map_host_tasks : (phase.tasks settings patience bootstrap).map Task.host = phase.hosts := by
  refine List.ext_getElem? fun i => ?_
  rw [List.getElem?_map, getElem?_tasks, Option.map_map]
  exact Option.map_id'

theorem length_tasks : (phase.tasks settings patience bootstrap).length = phase.hosts.length := by
  rw [← List.length_map (f := Task.host), map_host_tasks]

/-- Every task of a phase is for one of its hosts. -/
theorem mem_hosts_of_mem_tasks {task : Task Failure HostNodes}
    (h : task ∈ phase.tasks settings patience bootstrap) : task.host ∈ phase.hosts := by
  have mem := List.mem_map_of_mem (f := Task.host) h
  rwa [map_host_tasks] at mem

/-- All calls for a host, the readings included, are those of its deployment. -/
theorem everyCall_hostProgram (position : Nat) (host : String) :
    (phase.hostProgram settings patience bootstrap position host).EveryCall
      (HostCall settings phase ⟨host, settings.tag, bootstrap⟩) :=
  (phase.everyCall_deployNodes settings patience _ _).ending

/-- **Every call of a phase** is made on the host of its position, with that
host's environment or none. -/
theorem execute_hostCall {σ : Type} (remote : Remote σ) (mode : Mode) (s : σ) (t : Nat) :
    ∀ e ∈ (execute remote mode (phase.tasks settings patience bootstrap) s t).events,
      ∀ c, e.call? = some c → ∃ host, phase.hosts[e.position]? = some host ∧
        HostCall settings phase ⟨host, settings.tag, bootstrap⟩ c := by
  refine execute_everyCall remote mode s t (P := fun i c => ∃ host, phase.hosts[i]? = some host ∧
    HostCall settings phase ⟨host, settings.tag, bootstrap⟩ c) fun i task hi => ?_
  rw [getElem?_tasks] at hi
  obtain ⟨host, hhost, rfl⟩ := Option.map_eq_some_iff.1 hi
  exact (everyCall_hostProgram i host).mono fun c hc => ⟨host, hhost, hc⟩

/-- A host that succeeds has the nodes of its readings. -/
theorem hostProgram_ok {position : Nat} {host : String} {t t' : Nat} {xs : List Exchange}
    {nodes : HostNodes}
    (h : (phase.hostProgram settings patience bootstrap position host).Runs t xs
      (some (.ok nodes)) t') :
    ∃ infos, nodes = ⟨host, infos.map ContainerInfo.node⟩ ∧
      (phase.deployNodes settings patience (UInt64.ofNat position)
        ⟨host, settings.tag, bootstrap⟩).Runs t xs (some (.ok infos)) t' := by
  obtain ⟨o, runs, ho⟩ := Program.Runs.of_ending h
  cases o with
  | none => cases ho
  | some r =>
    cases r with
    | error f => cases ho
    | ok infos =>
      refine ⟨infos, ?_, runs⟩
      simpa [within] using ho

end PhasePlan
end Rollout
