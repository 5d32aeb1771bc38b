/-
# Control sequences in published identities

A node's identity is the ending of the last marked line of its log, stripped and
trimmed. An equals sign is in no control sequence, and no sequence begins or ends with a
blank, so cutting and trimming neither make a sequence nor break one
(`Container.exists_lastEnding`, `hasSequence_iff_of_trimsTo`): an identity has a sequence
exactly when stripping has left one in that ending.

Main statement: `DeploymentPlan.deploy_uncoloured_iff`. Stripping goes over a line once,
so a log that writes one sequence inside another has the outer one published
(`DeploymentPlan.deploy_uncoloured_nested`).
-/

import Rollout.Proofs.Container.Identity
import Rollout.Proofs.Deployment.Policies
import Rollout.Proofs.Text.Nesting

namespace Rollout

open Text (TrimsTo)
open Text.ControlSequence (strip HasSequence HasNest)

namespace Container

/-- What the last marked line of a log has behind its last equals sign as it is written,
or all of the line if it has none. -/
def LastEnding (logs ending : List Char) : Prop :=
  ∃ before written after, Text.lines logs = before ++ written :: after ∧
    identityMarker.toList <:+: strip written ∧
    (∀ later ∈ after, ¬ identityMarker.toList <:+: strip later) ∧
    (Text.afterLast? '=' written).getD written = ending

/-- **An identity** is the ending of the last marked line, stripped and trimmed. -/
theorem exists_lastEnding {logs id : String} (h : identity? logs = some id) :
    ∃ ending, LastEnding logs.toList ending ∧ TrimsTo (strip ending) id.toList := by
  obtain ⟨line, ⟨before, written, after, split, rfl, marked, unmarked⟩, read, -⟩ :=
    identity?_eq_some.1 h
  refine ⟨_, ⟨before, written, after, split, marked, unmarked, rfl⟩, ?_⟩
  rw [← Text.ControlSequence.getD_afterLast?_strip Text.ControlSequence.isBreak_equals]
  exact trimsTo_ending_iff.2 read

end Container

/-- Among the events is a log that a container has answered with. -/
def AnswersLog (es : List Event) (logs : String) : Prop :=
  ∃ i now host container,
    .returned i now (Container.logsCall host container) (.ok logs) ∈ es

/-- The identity of a listed node is that in a log of its host. -/
theorem Listed.exists_identity {settings : Settings} {phase : PhasePlan}
    {bootstrap : Option Multiaddr} {es : List Event} {i : Nat} {host : String} {nodes : List Node}
    (h : Listed settings phase bootstrap es i host nodes) {n : Node} (hn : n ∈ nodes) :
    ∃ logs, AnswersLog es logs ∧ Container.identity? logs = n.peerId := by
  obtain ⟨infos, rfl, -, -, read⟩ := h
  obtain ⟨info, hinfo, rfl⟩ := List.mem_map.1 hn
  obtain ⟨-, now, logs, answered, identity⟩ := read info hinfo
  exact ⟨logs, ⟨i, now, host, info.id, answered⟩, identity⟩

namespace DeploymentPlan

/-- **Stripping is complete except where sequences stand in others.** For every line,
stripping leaves a sequence, and stripping once more changes the result, exactly when the
line has a sequence with others in it. For every deployment, a published identity is the
ending of the last marked line of a log that a container has answered with, stripped and
trimmed; it has a sequence exactly when that ending has one with others in it. -/
theorem deploy_uncoloured_iff (line : List Char) {σ : Type} (plan : DeploymentPlan)
    (remote : Remote σ) (schedule : Schedule) (patience : Nat) (s : σ) (t : Nat) :
    (HasSequence (strip line) ↔ HasNest line) ∧
    (strip (strip line) = strip line ↔ ¬ HasNest line) ∧
    ∀ d, (plan.deploy remote schedule patience s t).result = some (.ok d) →
      ∀ n ∈ d.nodes, ∀ id, n.peerId = some id → ∃ logs ending,
        AnswersLog (plan.deploy remote schedule patience s t).events logs ∧
        Container.LastEnding logs.toList ending ∧ TrimsTo (strip ending) id.toList ∧
        (HasSequence id.toList ↔ HasNest ending) := by
  refine ⟨Text.ControlSequence.hasSequence_strip_iff, Text.ControlSequence.strip_strip_iff, ?_⟩
  intro d h n hn id hid
  obtain ⟨_, _, _, _, _, _, listed, hn⟩ := exists_listed_of_mem_nodes h n hn
  obtain ⟨logs, answered, identity⟩ := listed.exists_identity hn
  obtain ⟨ending, last, trims⟩ := Container.exists_lastEnding (identity.trans hid)
  refine ⟨logs, ending, answered, last, trims, ?_⟩
  exact (Text.ControlSequence.hasSequence_iff_of_trimsTo trims).trans
    Text.ControlSequence.hasSequence_strip_iff

end DeploymentPlan

/-- Hosts for the small plan, the first fleet host with the given log. -/
def Script.smallLogging (logs : String) : List Script.Host :=
  [readyHost "a" ["x"],
    { readyHost "b" [] with containers := [⟨"x", ["7/tcp->:7\n9/tcp->:9"], [logs]⟩] }]

namespace DeploymentPlan

/-- A coloured log, from which a plain identity is published. -/
theorem deploy_uncoloured_iff_small :
    strip (strip "\x1b[32mINFO\x1b[0m server peer id = \x1b[1mP\x1b[0m".toList) =
      strip "\x1b[32mINFO\x1b[0m server peer id = \x1b[1mP\x1b[0m".toList ∧
    ∃ d, (small.deploy (Script.remote (Script.smallLogging
        "\x1b[32mINFO\x1b[0m server peer id = \x1b[1mP\x1b[0m")) .earliest 1 [] 0).result =
        some (.ok d) ∧
      ∃ n ∈ d.nodes, n.peerId = some "P" ∧ ∃ ending, TrimsTo (strip ending) "P".toList ∧
        ¬ HasNest ending := by
  have loc := Script.remote_isLocal (Script.smallLogging
    "\x1b[32mINFO\x1b[0m server peer id = \x1b[1mP\x1b[0m")
  obtain ⟨d, hd, identities⟩ : ∃ d, (small.deploy (Script.remote (Script.smallLogging
      "\x1b[32mINFO\x1b[0m server peer id = \x1b[1mP\x1b[0m")) .earliest 1 [] 0).result =
        some (.ok d) ∧ d.nodes.map Node.peerId = [some "p", some "P"] :=
    exists_directory_of_each .earliest loc (by decide) (by decide +kernel)
  obtain ⟨-, once, published⟩ := deploy_uncoloured_iff
    "\x1b[32mINFO\x1b[0m server peer id = \x1b[1mP\x1b[0m".toList small
    (Script.remote (Script.smallLogging "\x1b[32mINFO\x1b[0m server peer id = \x1b[1mP\x1b[0m"))
    .earliest 1 [] 0
  refine ⟨once.2 (by decide +kernel), d, hd, ?_⟩
  have mem : some "P" ∈ d.nodes.map Node.peerId := by simp [identities]
  obtain ⟨n, hn, identity⟩ := List.mem_map.1 mem
  obtain ⟨_, ending, -, -, trims, nested⟩ := published d hd n hn "P" identity
  exact ⟨n, hn, identity, ending, trims, fun nest => absurd (nested.2 nest) (by decide +kernel)⟩

/-- A log that writes one sequence inside another. Stripping it twice takes out more than
stripping it once, and the outer sequence is published. -/
theorem deploy_uncoloured_nested :
    strip (strip "server peer id = P\x1b\x1b[m[m".toList) ≠
      strip "server peer id = P\x1b\x1b[m[m".toList ∧
    ∃ d, (small.deploy (Script.remote (Script.smallLogging
        "server peer id = P\x1b\x1b[m[m")) .earliest 1 [] 0).result = some (.ok d) ∧
      ∃ n ∈ d.nodes, n.peerId = some "P\x1b[m" ∧ HasSequence "P\x1b[m".toList := by
  have loc := Script.remote_isLocal (Script.smallLogging "server peer id = P\x1b\x1b[m[m")
  obtain ⟨d, hd, identities⟩ : ∃ d, (small.deploy (Script.remote (Script.smallLogging
      "server peer id = P\x1b\x1b[m[m")) .earliest 1 [] 0).result = some (.ok d) ∧
        d.nodes.map Node.peerId = [some "p", some "P\x1b[m"] :=
    exists_directory_of_each .earliest loc (by decide) (by decide +kernel)
  refine ⟨by decide +kernel, d, hd, ?_⟩
  have mem : some "P\x1b[m" ∈ d.nodes.map Node.peerId := by simp [identities]
  obtain ⟨n, hn, identity⟩ := List.mem_map.1 mem
  exact ⟨n, hn, identity, by decide +kernel⟩

end DeploymentPlan
end Rollout
