/-
# The export of a report

A report is exported as one JSON object. Its members are what the run was, and
then the directory. A reader of the object

- finds the time, the environment and the tag under their names;
- reads the directory from the same object, where these three are members it does
  not know, and where failures are left out when there are none.

Main statement: `Report.jsonText_read`. Nothing is assumed of the texts in a report,
since each of them is written as a JSON string.
-/

import Rollout.Report
import Rollout.Json.Reader
import Rollout.Proofs.Json.RoundTrip

namespace Rollout

/-! ### Reading back what is written -/

/-- A text that may be missing is read back. -/
theorem optionalPart?_optionalJson (s : Option String) :
    optionalPart? (some (optionalJson s)) = some s := by
  cases s <;> rfl

/-- A service is read back from its members. -/
theorem Service.ofJson?_json (s : Service) : ofJson? s.json = some s := by
  obtain ⟨port, multiaddr⟩ := s
  cases multiaddr <;> rfl

/-- A node is read back from its members. -/
theorem Node.ofJson?_json (n : Node) : ofJson? n.json = some n := by
  obtain ⟨peerId, tcp, ws⟩ := n
  have parts : (Node.json ⟨peerId, tcp, ws⟩).parts? ["peer_id", "tcp", "ws"] 3 =
      some [some (optionalJson peerId), some tcp.json, some ws.json] := rfl
  simp only [ofJson?, parts, Service.ofJson?_json, optionalPart?_optionalJson, Option.bind_eq_bind,
    Option.bind_some, Option.pure_def]

/-- A failed host is read back from its members. -/
theorem HostFailure.ofJson?_json (f : HostFailure) : ofJson? f.json = some f := rfl

/-- A list is read back if its elements are. -/
theorem listPart?_map {α : Type} {write : α → Json.Value} {read : Json.Value → Option α}
    (h : ∀ a, read (write a) = some a) (as : List α) :
    listPart? read (some (.array (as.map write))) = some as := by
  have same : read ∘ write = fun a => pure a := funext h
  rw [listPart?, List.mapM_map, same, List.mapM_pure, List.map_id']
  rfl

/-- The names of the members that hold a directory. -/
def NodeDirectory.memberNames : List String :=
  ["bootstrap", "special", "fleet", "failures"]

/-- A member with another name does not hide one of the directory. -/
theorem lookup_eq_none_of_apart {others : List (String × Json.Value)}
    (apart : ∀ m ∈ others, m.1 ∉ NodeDirectory.memberNames) {name : String}
    (h : name ∈ NodeDirectory.memberNames) : others.lookup name = none := by
  rw [List.lookup_eq_none_iff]
  intro m hm
  have differs : name ≠ m.1 := fun same => apart m hm (same ▸ h)
  simpa using differs

/-- **A directory is read back** from its members. Members with other names, before
and after them, do not matter. -/
theorem NodeDirectory.ofJson?_members (d : NodeDirectory)
    (before after : List (String × Json.Value)) (hb : ∀ m ∈ before, m.1 ∉ memberNames)
    (ha : ∀ m ∈ after, m.1 ∉ memberNames) :
    ofJson? (.object (before ++ (d.jsonMembers ++ after))) = some d := by
  have own : ∀ name ∈ memberNames,
      (before ++ (d.jsonMembers ++ after)).lookup name = d.jsonMembers.lookup name := by
    intro name h
    rw [List.lookup_append, List.lookup_append, lookup_eq_none_of_apart hb h,
      lookup_eq_none_of_apart ha h, Option.none_or, Option.or_none]
  obtain ⟨bootstrap, special, fleet, failures⟩ := d
  have parts : (Json.Value.object (before ++
      (jsonMembers ⟨bootstrap, special, fleet, failures⟩ ++ after))).parts? memberNames 3 =
      some [some bootstrap.json, some (.array (special.map Node.json)),
        some (.array (fleet.map Node.json)),
        if failures.isEmpty then none else some (.array (failures.map HostFailure.json))] := by
    rw [Json.Value.parts?, List.map_congr_left own]
    cases failures <;> rfl
  rw [memberNames] at parts
  simp only [ofJson?, parts, Node.ofJson?_json, listPart?_map Node.ofJson?_json,
    Option.bind_eq_bind, Option.bind_some, Option.pure_def]
  cases failures with
  | nil => rfl
  | cons f fs =>
    have back := listPart?_map HostFailure.ofJson?_json (f :: fs)
    simp only [List.isEmpty_cons, Bool.false_eq_true, if_false, back, Option.bind_some]

/-! ### No part of a report is a number -/

/-- A text that may be missing is written without a number. -/
theorem numberFree_optionalJson (s : Option String) : (optionalJson s).NumberFree := by
  cases s with
  | none => exact .null
  | some s => exact .string s

/-- A list is written without a number if its elements are. -/
theorem numberFree_map {α : Type} {write : α → Json.Value} (h : ∀ a, (write a).NumberFree)
    (as : List α) : (Json.Value.array (as.map write)).NumberFree :=
  .array fun v hv => by
    obtain ⟨a, -, rfl⟩ := List.mem_map.1 hv
    exact h a

theorem Service.numberFree (s : Service) : s.json.NumberFree :=
  .object <| List.forall_mem_cons.2 ⟨.string s.port,
    List.forall_mem_singleton.2 (numberFree_optionalJson _)⟩

theorem Node.numberFree (n : Node) : n.json.NumberFree :=
  .object <| List.forall_mem_cons.2 ⟨numberFree_optionalJson _,
    List.forall_mem_cons.2 ⟨n.tcp.numberFree, List.forall_mem_singleton.2 n.ws.numberFree⟩⟩

theorem HostFailure.numberFree (f : HostFailure) : f.json.NumberFree :=
  .object <| List.forall_mem_cons.2 ⟨.string f.host, List.forall_mem_singleton.2 (.string f.cause)⟩

/-- No member of a directory has a number in it. -/
theorem NodeDirectory.numberFree_members (d : NodeDirectory) :
    ∀ m ∈ d.jsonMembers, m.2.NumberFree := by
  rw [jsonMembers, List.forall_mem_append]
  refine ⟨List.forall_mem_cons.2 ⟨d.bootstrap.numberFree, List.forall_mem_cons.2
    ⟨numberFree_map Node.numberFree d.special,
      List.forall_mem_singleton.2 (numberFree_map Node.numberFree d.fleet)⟩⟩, ?_⟩
  split
  · exact List.forall_mem_nil _
  · exact List.forall_mem_singleton.2 (numberFree_map HostFailure.numberFree d.failures)

namespace Report

/-- No number stands in a report. -/
theorem numberFree (r : Report) : r.json.NumberFree :=
  .object <| List.forall_mem_cons.2 ⟨.string r.generatedAt, List.forall_mem_cons.2
    ⟨.string r.environment, List.forall_mem_cons.2
      ⟨.string r.tag, r.directory.numberFree_members⟩⟩⟩

/-- What a report says, as members of an object. -/
structure ReadFrom (r : Report) (members : List (String × Json.Value)) : Prop where
  /-- No name stands for two members, so it does not matter which one a reader takes. -/
  names : (members.map Prod.fst).Nodup
  generatedAt : members.lookup "generated_at" = some (.string r.generatedAt)
  environment : members.lookup "environment" = some (.string r.environment)
  tag : members.lookup "tag" = some (.string r.tag)
  directory : NodeDirectory.ofJson? (.object members) = some r.directory

/-- **An exported report is read back.** The text is one object, and what is read from
it is the report, whatever texts and lists it is made of. -/
theorem jsonText_read (r : Report) :
    ∃ members, Json.read? r.jsonText = some (.object members) ∧ r.ReadFrom members := by
  -- What the run was stands before the members of the directory, and none after them.
  refine ⟨_, Json.read?_text r.numberFree, ?_⟩
  constructor
  case names =>
    rw [NodeDirectory.jsonMembers]
    split <;> simp
  case generatedAt => rfl
  case environment => rfl
  case tag => rfl
  case directory =>
    have read := NodeDirectory.ofJson?_members r.directory
      [("generated_at", .string r.generatedAt), ("environment", .string r.environment),
        ("tag", .string r.tag)] [] (by simp [NodeDirectory.memberNames]) (List.forall_mem_nil _)
    rwa [List.append_nil] at read

end Report
end Rollout
