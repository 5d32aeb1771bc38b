/-
# Scripted hosts are local

A scripted host answers from its own memory. So a script is a local remote, seen
through the memory of every host, and two scripts are alike on every host that
is the same in both.

It answers from the target of a call, so it knows nothing of the contents of files.

Main statements: `Script.remote_alikeOn`, `Script.remote_isLocal` and
`Script.remote_ignoresContents`.
-/

import Rollout.Proofs.Remote.Contents
import Rollout.Remote.Script

namespace Rollout
namespace Script

/-- The memory of the host with a name, if anything has happened on it. -/
def memory? (name : String) (s : State) : Option Memory :=
  s.find? fun m => m.name == name

/-- A host keeps its name when it answers a plain command. -/
theorem Host.name_plainAnswer (h : Host) (m : Memory) (target : List Char) :
    (h.plainAnswer m target).2.name = m.name := by
  unfold Host.plainAnswer
  repeat' split
  all_goals rfl

/-- A host keeps its name when it answers. -/
theorem Host.name_answer (h : Host) (m : Memory) (target : List Char) :
    (h.answer m target).2.name = m.name := by
  unfold Host.answer
  dsimp only
  split
  · rfl
  · exact h.name_plainAnswer _ target

/-- The host that is found by a name has that name. -/
theorem name_of_find? {hosts : List Host} {name : String} {h : Host}
    (hh : hosts.find? (fun h => h.name == name) = some h) : h.name = name := by
  simpa using List.find?_some hh

/-- What is remembered of a host is under its name. -/
theorem name_memoryOf (s : State) (h : Host) : (memoryOf s h).name = h.name := by
  unfold memoryOf
  cases hm : s.find? fun m => m.name == h.name with
  | none => rfl
  | some m => simpa using List.find?_some hm

/-- What has been remembered of a host is its memory. -/
theorem memory?_remember_self (s : State) (m : Memory) :
    memory? m.name (remember s m) = some m := by
  simp [memory?, remember]

/-- What is remembered of one host leaves the others as they were. -/
theorem memory?_remember_of_ne (s : State) {m : Memory} {name : String} (h : name ≠ m.name) :
    memory? name (remember s m) = memory? name s := by
  have first : (m.name == name) = false := by simpa using h.symm
  simp only [memory?, remember, List.find?_cons, first, List.find?_filter]
  congr 1
  funext other
  by_cases ho : other.name = name
  · simp [ho, h]
  · simp [ho]

variable {hosts hosts' : List Host} {name : String}

/-- A host that is not in the script cannot be reached, and nothing is remembered of it. -/
theorem answer_of_none (hh : hosts.find? (fun h => h.name == name) = none) (s : State)
    (target : String) : Script.answer hosts s name target =
      (refusal 255 ("ssh: connect to host " ++ name ++ ": no route to host"), s) := by
  rw [Script.answer, hh]

/-- A host in the script answers from its memory, which is remembered. -/
theorem answer_of_some {h : Host} (hh : hosts.find? (fun h => h.name == name) = some h)
    (s : State) (target : String) : Script.answer hosts s name target =
      ((h.answer (memoryOf s h) target.toList).1,
        remember s (h.answer (memoryOf s h) target.toList).2) := by
  rw [Script.answer, hh]

/-- The memory of a host after it has answered. -/
theorem memory?_answer {h : Host} (hh : hosts.find? (fun h => h.name == name) = some h)
    (s : State) (target : String) :
    memory? name (Script.answer hosts s name target).2 =
      some (h.answer (memoryOf s h) target.toList).2 := by
  have hname : (h.answer (memoryOf s h) target.toList).2.name = name := by
    rw [h.name_answer, name_memoryOf, name_of_find? hh]
  rw [answer_of_some hh]
  exact hname ▸ memory?_remember_self s _

/-- The memory of a host depends on what is seen of it. -/
theorem memoryOf_congr {h : Host} (hname : h.name = name) {s s' : State}
    (hview : memory? name s = memory? name s') : memoryOf s h = memoryOf s' h := by
  subst hname
  exact congrArg (Option.getD · h.untouched) hview

/-- **Scripts are alike** on a host that is the same in both. -/
theorem remote_alikeOn
    (same : hosts.find? (fun h => h.name == name) = hosts'.find? fun h => h.name == name) :
    (remote hosts).AlikeOn memory? name (remote hosts') := by
  constructor
  case latency =>
    rintro s s' c rfl -
    simp only [remote]
    rw [same]
  case reply =>
    rintro s s' c rfl hview
    change (Script.answer hosts s c.host _).1 = (Script.answer hosts' s' c.host _).1
    cases hh : hosts.find? fun h => h.name == c.host with
    | none => rw [answer_of_none hh, answer_of_none (same ▸ hh)]
    | some h =>
      rw [answer_of_some hh, answer_of_some (same ▸ hh), memoryOf_congr (name_of_find? hh) hview]
  case own =>
    rintro s s' c rfl hview
    change memory? c.host (Script.answer hosts s c.host _).2 =
      memory? c.host (Script.answer hosts' s' c.host _).2
    cases hh : hosts.find? fun h => h.name == c.host with
    | none =>
      rw [answer_of_none hh, answer_of_none (same ▸ hh)]
      exact hview
    | some h =>
      rw [memory?_answer hh, memory?_answer (same ▸ hh), memoryOf_congr (name_of_find? hh) hview]

/-- **Scripted hosts are local.** -/
theorem remote_isLocal (hosts : List Host) : (remote hosts).IsLocal memory? where
  alike _ := remote_alikeOn rfl
  others s c other hother := by
    change memory? other (Script.answer hosts s c.host (target c.action)).2 = memory? other s
    cases hh : hosts.find? fun h => h.name == c.host with
    | none => rw [answer_of_none hh]
    | some h =>
      rw [answer_of_some hh]
      refine memory?_remember_of_ne s ?_
      rw [h.name_answer, name_memoryOf, name_of_find? hh]
      exact hother

/-- What is written is no part of what a call is answered by. -/
theorem target_masked (c : Call) : target c.masked.action = target c.action := by
  obtain ⟨host, action⟩ := c
  cases action <;> rfl

/-- **Scripted hosts ignore the contents of files.** -/
theorem remote_ignoresContents (hosts : List Host) : (remote hosts).IgnoresContents id := by
  have same : ∀ c c' : Call, c.masked = c'.masked →
      c.host = c'.host ∧ target c.action = target c'.action := by
    intro c c' h
    refine ⟨?_, ?_⟩
    · rw [← c.host_masked, ← c'.host_masked, h]
    · rw [← target_masked, ← target_masked c', h]
  constructor
  case latency =>
    rintro s s' c c' - h
    simp only [remote, (same c c' h).1]
  case reply =>
    rintro s s' c c' rfl h
    simp only [remote, (same c c' h).1, (same c c' h).2, id]
  case next =>
    rintro s s' c c' rfl h
    simp only [remote, (same c c' h).1, (same c c' h).2, id]

end Script
end Rollout
