/-
# The lines of a printed directory

A directory is printed over lines, and a node on its line in three fields with a
space between them. What is printed of hosts, nodes and failures:

| part | can hold |
| --- | --- |
| an address | no blank, if the host has none |
| an identity | a space inside, but no line feed |
| the cause of a failure | spaces and line feeds, as the host wrote them |

Main statement: `DeploymentPlan.deploy_printed_iff`. The lines are read back exactly
when no cause has a line feed, and the fields of a node exactly when its identity has
no space. Nothing in a run keeps a host from sending either.
-/

import Rollout.Proofs.Address.Written
import Rollout.Proofs.Deployment.Resolved
import Rollout.Report

namespace Rollout

open Text

/-! ### Lines and fields -/

/-- A failure on one line. -/
def HostFailure.line (f : HostFailure) : String :=
  f.host ++ " " ++ f.cause

/-- The fields on the line of a node. -/
def Node.fields (n : Node) : List String :=
  [n.tcp.addressText, n.ws.addressText, n.peerId.getD "unknown"]

/-- The line of a node is its fields with spaces between them. -/
theorem Node.line_eq (n : Node) : n.line = " ".intercalate n.fields := by
  rw [line, fields, ← String.toList_inj]
  simp [String.toList_append]

/-- The addresses of the node have no blank, and its identity is on one line. -/
structure Node.Printable (n : Node) : Prop where
  tcp : Unbroken n.tcp.addressText.toList
  ws : Unbroken n.ws.addressText.toList
  identity : ∀ id, n.peerId = some id → '\n' ∉ id.toList

namespace Node.Printable

variable {n : Node}

/-- A character that is not in the word for a missing identity is in the last field only if it is
in the identity. -/
theorem not_mem_identity {c : Char} (unknown : c ∉ "unknown".toList) :
    c ∉ (n.peerId.getD "unknown").toList ↔ ∀ id, n.peerId = some id → c ∉ id.toList := by
  cases n.peerId with
  | none => simpa using unknown
  | some id => simp

/-- **The fields of a node** are read back exactly when its identity has no space. -/
theorem fields_iff (h : n.Printable) :
    splitAt ' ' n.line = n.fields ↔ ∀ id, n.peerId = some id → ' ' ∉ id.toList := by
  have read : splitAt ' ' n.line = n.fields ↔ ∀ s ∈ n.fields, ' ' ∉ s.toList := by
    rw [n.line_eq]
    exact splitAt_intercalate_iff rfl (List.cons_ne_nil _ _)
  rw [read, fields, List.forall_mem_cons, List.forall_mem_cons, List.forall_mem_singleton,
    not_mem_identity (by decide)]
  simp only [h.tcp.not_mem, h.ws.not_mem, not_false_eq_true, true_and]

/-- A printable node has one line. -/
theorem oneLine (h : n.Printable) : '\n' ∉ n.line.toList := by
  have identity := (not_mem_identity (by decide)).2 h.identity
  have space : '\n' ∉ " ".toList := by decide
  simp only [line, String.toList_append, List.mem_append, h.tcp.not_mem, h.ws.not_mem, identity,
    space, or_self, not_false_eq_true]

end Node.Printable

/-- A failed host has one line when its cause has. -/
theorem HostFailure.oneLine_iff {f : HostFailure} (h : Unbroken f.host.toList) :
    '\n' ∉ f.line.toList ↔ '\n' ∉ f.cause.toList := by
  have space : '\n' ∉ " ".toList := by decide
  simp only [line, String.toList_append, List.mem_append, h.not_mem, space, false_or]

namespace NodeDirectory

/-- The lines of a directory: a heading for each group, and one line for each node
and each failure. -/
def printedLines (d : NodeDirectory) : List String :=
  "Addresses:" :: d.fleet.map Node.line ++ "Bootstrap:" :: d.bootstrap.line ::
    "Special ones:" :: d.special.map Node.line ++
      if d.failures.isEmpty then [] else "Failed hosts:" :: d.failures.map HostFailure.line

/-- The lines with a line feed after each of them. -/
theorem join_eq_intercalate (lines : List String) :
    String.join (lines.map (· ++ "\n")) = "\n".intercalate (lines ++ [""]) := by
  induction lines with
  | nil => rfl
  | cons l lines ih =>
    obtain ⟨next, rest, split⟩ : ∃ next rest, lines ++ [""] = next :: rest :=
      List.exists_cons_of_ne_nil (by simp)
    rw [List.map_cons, String.join_cons, ih, List.cons_append, split, String.intercalate_cons_cons]

/-- Every node has a line of its own. -/
theorem nodeLines_eq (nodes : List Node) :
    nodeLines nodes = String.join ((nodes.map Node.line).map (· ++ "\n")) := by
  rw [nodeLines, List.map_map]
  rfl

/-- Failed hosts stand under a heading, and without any there is none. -/
theorem failureLines_eq (failures : List HostFailure) :
    failureLines failures = String.join
      ((if failures.isEmpty then [] else "Failed hosts:" :: failures.map HostFailure.line).map
        (· ++ "\n")) := by
  rw [failureLines]
  split
  · rfl
  · rw [List.map_cons, List.map_map, String.join_cons]
    rfl

/-- **The text of a directory** is its lines, each ended by a line feed. -/
theorem text_eq (d : NodeDirectory) : d.text = "\n".intercalate (d.printedLines ++ [""]) := by
  have parts : d.text = "Addresses:" ++ "\n" ++ nodeLines d.fleet ++ ("Bootstrap:" ++ "\n") ++
      nodeLines [d.bootstrap] ++ ("Special ones:" ++ "\n") ++ nodeLines d.special ++
        failureLines d.failures := rfl
  rw [← join_eq_intercalate, parts, printedLines, failureLines_eq]
  simp only [nodeLines_eq, List.map_append, List.map_cons, List.map_nil, String.join_append,
    String.join_cons, String.join_nil, String.append_assoc, String.empty_append]

/-- Every node is printable, and no host of a failure has a blank. -/
structure Printable (d : NodeDirectory) : Prop where
  nodes : ∀ n ∈ d.nodes, n.Printable
  hosts : ∀ f ∈ d.failures, Unbroken f.host.toList

/-- What holds of the headings holds of all lines if it does of those of the nodes and the failed
hosts. -/
theorem forall_mem_printedLines {d : NodeDirectory} {P : String → Prop}
    (headings : ∀ l ∈ ["Addresses:", "Bootstrap:", "Special ones:", "Failed hosts:"], P l) :
    (∀ l ∈ d.printedLines, P l) ↔ (∀ n ∈ d.nodes, P n.line) ∧ ∀ f ∈ d.failures, P f.line := by
  obtain ⟨addresses, bootstrap, special, failed⟩ :
      P "Addresses:" ∧ P "Bootstrap:" ∧ P "Special ones:" ∧ P "Failed hosts:" := by
    simpa using headings
  have failures : (∀ l ∈ (if d.failures.isEmpty then [] else
      "Failed hosts:" :: d.failures.map HostFailure.line), P l) ↔ ∀ f ∈ d.failures, P f.line := by
    split
    · rename_i none
      simp [List.isEmpty_iff.1 none]
    · rw [List.forall_mem_cons, List.forall_mem_map, and_iff_right failed]
  simp only [printedLines, nodes, List.cons_append, List.forall_mem_cons, List.forall_mem_append,
    List.forall_mem_map, failures, addresses, bootstrap, special, true_and]
  constructor
  · rintro ⟨⟨fleet, first, others⟩, failing⟩
    exact ⟨⟨first, others, fleet⟩, failing⟩
  · rintro ⟨⟨first, others, fleet⟩, failing⟩
    exact ⟨⟨fleet, first, others⟩, failing⟩

/-- **The lines of a directory** are read back exactly when no cause has a line feed. -/
theorem Printable.lines_iff {d : NodeDirectory} (h : d.Printable) :
    splitAt '\n' d.text = d.printedLines ++ [""] ↔ ∀ f ∈ d.failures, '\n' ∉ f.cause.toList := by
  have feed : '\n' ∉ "".toList := by decide
  rw [d.text_eq, splitAt_intercalate_iff rfl (by simp), List.forall_mem_append,
    List.forall_mem_singleton, forall_mem_printedLines (by decide), and_iff_left feed,
    and_iff_right fun n hn => (h.nodes n hn).oneLine]
  exact forall₂_congr fun f hf => HostFailure.oneLine_iff (h.hosts f hf)

end NodeDirectory

/-! ### The directories of runs -/

/-- A port has no blanks in it. -/
theorem Transport.IsPort.unbroken {t : Transport} {port : String} (h : t.IsPort port) :
    Unbroken port.toList :=
  fun c hc => isBlank_of_isDigit (h.digits c hc)

/-- **A node that is resolved on a host without blanks** is printable. -/
theorem Node.ResolvedOn.printable {n : Node} {host : String} (h : n.ResolvedOn host)
    (hh : Unbroken host.toList) : n.Printable := by
  have network := Multiaddr.unbroken_network hh
  have tcp : Unbroken "/tcp/".toList := by decide
  have ws : Unbroken "/ws".toList := by decide
  constructor
  case tcp =>
    rw [Service.addressText, h.tcpAddress]
    simp only [String.toList_append, unbroken_append]
    exact ⟨⟨network, tcp⟩, h.tcpPort.unbroken⟩
  case ws =>
    rw [Service.addressText, h.wsAddress]
    simp only [String.toList_append, unbroken_append]
    exact ⟨⟨⟨network, tcp⟩, h.wsPort.unbroken⟩, ws⟩
  case identity => exact fun id hid => (h.identity id hid).noLineFeed

namespace DeploymentPlan

variable {σ : Type} {plan : DeploymentPlan} {remote : Remote σ} {schedule : Schedule}
  {patience : Nat} {s : σ} {t : Nat} {d : NodeDirectory}

/-- **Every node of a directory** is resolved on a host of the plan. -/
theorem exists_host_of_mem_nodes
    (h : (plan.deploy remote schedule patience s t).result = some (.ok d)) :
    ∀ n ∈ d.nodes, ∃ host ∈ plan.inventory.hosts, n.ResolvedOn host := by
  intro n hn
  obtain ⟨_, _, _, host, mem, _, listed, hn⟩ := exists_listed_of_mem_nodes h n hn
  exact ⟨host, mem, listed.resolvedOn n hn⟩

/-- Every failure of a directory is of a host of the plan. -/
theorem host_mem_of_mem_failures
    (h : (plan.deploy remote schedule patience s t).result = some (.ok d)) :
    ∀ f ∈ d.failures, f.host ∈ plan.inventory.hosts := by
  obtain ⟨bs, b, os, -, -, hos, -, -, -, -, hfailures⟩ := deploy_eq_ok h
  intro f hf
  rw [hfailures] at hf
  obtain ⟨o, ho, hf⟩ := List.mem_filterMap.1 hf
  have host : o.host ∈ plan.fleet.hosts := fleet_hosts hos ▸ List.mem_map_of_mem ho
  rw [failureOf?] at hf
  split at hf
  · cases hf
  · obtain rfl := Option.some.inj hf
    exact List.mem_append_right _ host

/-- **A deployment gives printable nodes** when its hosts are written without blanks, whatever the
remote answers. -/
theorem printable_of_deploy (hosts : ∀ host ∈ plan.inventory.hosts, Unbroken host.toList)
    (h : (plan.deploy remote schedule patience s t).result = some (.ok d)) : d.Printable := by
  constructor
  case nodes =>
    intro n hn
    obtain ⟨host, mem, resolved⟩ := exists_host_of_mem_nodes h n hn
    exact resolved.printable (hosts host mem)
  case hosts => exact fun f hf => hosts f.host (host_mem_of_mem_failures h f hf)

/-- **A printed directory is read back exactly when its free texts allow it.** Hosts may
answer anything. The text has one line for each heading, node and failure, and a last
one that is empty, if and only if no cause of a failure has a line feed. The line of a
node has its two addresses and its identity as fields if and only if the identity has
no space. -/
theorem deploy_printed_iff (hosts : ∀ host ∈ plan.inventory.hosts, Unbroken host.toList)
    (h : (plan.deploy remote schedule patience s t).result = some (.ok d)) :
    (splitAt '\n' d.text = d.printedLines ++ [""] ↔ ∀ f ∈ d.failures, '\n' ∉ f.cause.toList) ∧
      ∀ n ∈ d.nodes, splitAt ' ' n.line = n.fields ↔
        ∀ id, n.peerId = some id → ' ' ∉ id.toList :=
  have printable := printable_of_deploy hosts h
  ⟨printable.lines_iff, fun n hn => (printable.nodes n hn).fields_iff⟩

/-- The second fleet host of the small plan fails, for a reason on one line. -/
theorem deploy_printed_iff_small : ∃ d,
    (small.deploy (Script.remote Script.smallCrowded) .earliest 1 [] 0).result = some (.ok d) ∧
      d.failures.length = 1 ∧ splitAt '\n' d.text = d.printedLines ++ [""] := by
  have loc := Script.remote_isLocal Script.smallCrowded
  obtain ⟨d, hd, found⟩ : ∃ d,
      (small.deploy (Script.remote Script.smallCrowded) .earliest 1 [] 0).result = some (.ok d) ∧
        (d.failures.length, d.failures.all fun f => !f.cause.toList.contains '\n') = (1, true) :=
    exists_directory_of_each .earliest loc (by decide) (by decide +kernel)
  obtain ⟨one, plain⟩ := Prod.mk.inj found
  refine ⟨d, hd, one, (deploy_printed_iff (by decide) hd).1.2 fun f hf => ?_⟩
  simpa using List.all_eq_true.1 plain f hf

end DeploymentPlan

/-- Hosts for the small plan. The first fleet host has an identity of two words, and
pulling an image on the second fails for a reason on two lines. -/
def Script.smallWordy : List Script.Host :=
  [readyHost "a" ["x"],
    { readyHost "b" [] with
      containers := [⟨"x", ["7/tcp->:7\n9/tcp->:9"], ["server peer id=p q"]⟩] },
    { readyHost "c" ["x"] with rules := [⟨"pull", 0, none, refusal 1 "first\nsecond"⟩] }]

/-- Neither the lines of that directory nor the fields of that host are read back. -/
theorem DeploymentPlan.deploy_printed_wordy : ∃ d,
    (small.deploy (Script.remote Script.smallWordy) .earliest 1 [] 0).result = some (.ok d) ∧
      splitAt '\n' d.text ≠ d.printedLines ++ [""] ∧
      ∃ n ∈ d.nodes, splitAt ' ' n.line ≠ n.fields := by
  have loc := Script.remote_isLocal Script.smallWordy
  obtain ⟨d, hd, found⟩ : ∃ d,
      (small.deploy (Script.remote Script.smallWordy) .earliest 1 [] 0).result = some (.ok d) ∧
        (d.failures.map HostFailure.cause, d.nodes.map Node.peerId) =
          (["Deployment of c failed: [c] \x60docker-compose -f node.yml pull\x60 failed " ++
            "(exit status: 1): first\nsecond"], [some "p", some "p q"]) :=
    exists_directory_of_each .earliest loc (by decide) (by decide +kernel)
  obtain ⟨causes, identities⟩ := Prod.mk.inj found
  have printable := printable_of_deploy (by decide) hd
  refine ⟨d, hd, fun read => ?_, ?_⟩
  · obtain ⟨f, hf, cause⟩ := List.map_eq_singleton_iff.1 causes
    have oneLine := printable.lines_iff.1 read f (hf ▸ List.mem_cons_self)
    rw [cause] at oneLine
    exact absurd oneLine (by decide)
  · have mem : some "p q" ∈ d.nodes.map Node.peerId := by simp [identities]
    obtain ⟨n, hn, identity⟩ := List.mem_map.1 mem
    refine ⟨n, hn, fun read => ?_⟩
    have oneWord := (printable.nodes n hn).fields_iff.1 read _ identity
    exact absurd oneWord (by decide)

end Rollout
