/-
# What is left of staged keypairs

A keypair is staged on its host, copied into its container and removed. The
removal comes after the copy, so it is not made when the copy fails:

| the copy of the keypair | the staged file |
| --- | --- |
| succeeds | is removed, or at least its removal is called for |
| fails | stays on the host, and the deployment ends |

Main statement: `PhasePlan.staged_left_iff`. A staged file stays in exactly the
second case. What a program leaves is what its parts leave
(`Program.LeavesFailedCopies.bind`), so the deployment is read off part by part.
-/

import Rollout.Proofs.Deployment.Canonical

namespace Rollout

/-- The call writes a text at a path. -/
def Call.WritesAt (c : Call) (path : String) : Prop :=
  ∃ contents, c.action = .write contents path

/-- What is written at a path is a keypair. -/
theorem Call.WritesAt.carriesKey {c : Call} {path : String} (h : c.WritesAt path) :
    c.CarriesKey := by
  obtain ⟨contents, h⟩ := h
  rw [CarriesKey, h]
  exact trivial

/-- The call that removes what is at a path. -/
def removeCall (host path : String) : Call :=
  ⟨host, .run ("rm -f " ++ path) []⟩

/-- A text has been written at the path, and its removal has not been called for
since. -/
def LeftAt (path : String) (xs : List Exchange) : Prop :=
  ∃ before x after, xs = before ++ x :: after ∧ x.call.WritesAt path ∧ x.IsAnswered ∧
    ∀ y ∈ after, y.call ≠ removeCall x.call.host path

/-- The exchanges end with a keypair that is staged at the path and whose copy
into a container fails. -/
def CopyFails (host path : String) (xs : List Exchange) (f : Failure) : Prop :=
  ∃ before x y key container e, xs = before ++ [x, y] ∧
    x.call = stageCall host path key ∧ x.IsAnswered ∧
    y.call = installCall host path container ∧ y.reply = .error e ∧ f = Failure.ofCall y.call e

section

variable {host path : String} {xs ys : List Exchange} {f : Failure}

/-- A file that is left by two lists of exchanges is left by one of them. -/
theorem LeftAt.of_append (h : LeftAt path (xs ++ ys)) : LeftAt path xs ∨ LeftAt path ys := by
  obtain ⟨before, x, after, split, writes, answered, kept⟩ := h
  rcases append_eq_append_cons split with ⟨mid, rfl, rfl⟩ | ⟨mid, rfl, rfl⟩
  · exact .inl ⟨before, x, mid, rfl, writes, answered,
      fun y hy => kept y (List.mem_append_left _ hy)⟩
  · exact .inr ⟨mid, x, after, rfl, writes, answered, kept⟩

/-- Where no call carries a keypair nothing is left. -/
theorem not_leftAt_of_keyless (keyless : ∀ x ∈ xs, ¬ x.call.CarriesKey) : ¬ LeftAt path xs := by
  rintro ⟨before, x, after, rfl, writes, -, -⟩
  exact keyless x (by simp) writes.carriesKey

/-- A copy that fails at the end of some exchanges does so with others before them. -/
theorem CopyFails.append (h : CopyFails host path ys f) : CopyFails host path (xs ++ ys) f := by
  obtain ⟨before, x, y, key, container, e, rfl, rest⟩ := h
  exact ⟨xs ++ before, x, y, key, container, e, (List.append_assoc ..).symm, rest⟩

/-- What is staged when a copy fails stays. -/
theorem CopyFails.leftAt (h : CopyFails host path xs f) : LeftAt path xs := by
  obtain ⟨before, x, y, key, container, e, rfl, hx, answered, hy, -, -⟩ := h
  refine ⟨before, x, [y], rfl, ⟨key ++ "\n", by rw [hx]; rfl⟩, answered, fun z hz => ?_⟩
  rw [List.mem_singleton.1 hz, hy]
  simp [installCall, removeCall, copyCommand, ← String.toList_inj, String.toList_append]

end

/-- What the program leaves is staged by a copy that fails. -/
def Program.LeavesFailedCopies {α : Type} (host path : String) (p : Program Failure α) : Prop :=
  ∀ (t t' : Nat) (xs : List Exchange) (o : Option (Except Failure α)), p.Runs t xs o t' →
    LeftAt path xs → ∃ f, o = some (.error f) ∧ CopyFails host path xs f

namespace Program.LeavesFailedCopies

variable {α β : Type} {host path : String}

/-- What carries no keypair leaves none. -/
theorem of_keyless {p : Program Failure α} (h : p.EveryCall (¬ ·.CarriesKey)) :
    p.LeavesFailedCopies host path :=
  fun _ _ _ _ runs left => absurd left (not_leftAt_of_keyless (runs.everyCall h))

/-- One thing after another leaves what either of them leaves. -/
theorem bind {p : Program Failure α} {k : α → Program Failure β}
    (hp : p.LeavesFailedCopies host path) (hk : ∀ a, (k a).LeavesFailedCopies host path) :
    (p >>= k).LeavesFailedCopies host path := by
  intro t t' xs o h left
  rcases Runs.of_bind h with ⟨a, ys, zs, _, rfl, first, rest⟩ | ⟨f, rfl, first⟩ | ⟨rfl, first⟩
  · rcases left.of_append with left | left
    · obtain ⟨f, failed, -⟩ := hp _ _ _ _ first left
      cases failed
    · obtain ⟨f, rfl, fails⟩ := hk a _ _ _ _ rest left
      exact ⟨f, rfl, fails.append⟩
  · obtain ⟨g, hg, fails⟩ := hp _ _ _ _ first left
    obtain rfl : f = g := by simpa using hg
    exact ⟨f, rfl, fails⟩
  · obtain ⟨f, failed, -⟩ := hp _ _ _ _ first left
    cases failed

end Program.LeavesFailedCopies

namespace PhasePlan

variable {phase : PhasePlan} {settings : Settings} {position : UInt64} {env : HostEnvironment}
  {host configName path : String} {xs : List Exchange}

/-! ### One container -/

/-- Among the calls for one container, what is left has just been staged, or the
copy of it is the last call. -/
theorem leftAt_of_le_equipCalls {staging key container : String}
    (calls : xs.map Exchange.call <+: equipCalls host configName staging key container)
    (left : LeftAt path xs) :
    ∃ a x, x.call = stageCall host path key ∧ x.IsAnswered ∧
      (xs = [a, x] ∨ ∃ y, xs = [a, x, y] ∧ y.call = installCall host path container) := by
  obtain ⟨before, x, after, rfl, writes, answered, kept⟩ := left
  -- The call is the first, second, third or fourth of the row, and only the second writes.
  rcases before with _ | ⟨a, _ | ⟨b, _ | ⟨c, _ | ⟨d, before⟩⟩⟩⟩ <;>
    simp only [equipCalls, List.nil_append, List.cons_append, List.map_cons,
      List.cons_prefix_cons] at calls
  · exact absurd (calls.1 ▸ writes).carriesKey (not_carriesKey_config _ _)
  · obtain ⟨-, hx, rest⟩ := calls
    obtain ⟨contents, hw⟩ := writes
    obtain ⟨-, rfl⟩ : key ++ "\n" = contents ∧ staging = path := by simpa [hx] using hw
    refine ⟨a, x, hx, answered, ?_⟩
    rcases after with _ | ⟨y, _ | ⟨z, after⟩⟩
    · exact .inl rfl
    · exact .inr ⟨y, rfl, by simpa [installCall] using rest⟩
    · simp only [List.map_cons, List.cons_prefix_cons] at rest
      refine absurd rest.2.1 ?_
      rw [hx] at kept
      exact kept z (by simp)
  · obtain ⟨-, -, hx, -⟩ := calls
    obtain ⟨contents, hw⟩ := writes
    simp [hx] at hw
  · obtain ⟨-, -, -, hx, -⟩ := calls
    exact absurd (hx ▸ writes).carriesKey (not_carriesKey_remove _)
  · simp at calls

/-- **What is left of a container's keypair** is what was staged when its copy
failed. -/
theorem equip_leaves {place : Nat} {container : String} :
    (phase.equip position host configName place container).LeavesFailedCopies host path := by
  cases hk : phase.keypairOf position host place container with
  | error f =>
    -- There is no keypair, so the config is copied and nothing else is done.
    rw [equip, hk]
    exact .of_keyless ((everyCall_call (not_carriesKey_config _ _)).bind fun _ =>
      Program.everyCall_fail f)
  | ok slot =>
    intro t t' xs o h left
    rw [phase.equip_eq hk rfl] at h
    rcases Program.Runs.of_performAll h with ⟨-, completed⟩ | ⟨f, rfl, stopped⟩
    · obtain ⟨a, x, -, -, rfl | ⟨y, rfl, -⟩⟩ := leftAt_of_le_equipCalls completed.le left
      all_goals simpa [equipCalls] using congrArg List.length completed.1
    · obtain ⟨ys, z, e, rfl, -, failed, calls, rfl⟩ := stopped
      obtain ⟨a, x, hx, answered, split | ⟨y, split, hy⟩⟩ := leftAt_of_le_equipCalls calls left
      · obtain ⟨-, hz⟩ := List.append_inj' (split.trans (List.singleton_append (x := a)).symm) rfl
        obtain ⟨answer, reply⟩ := answered
        obtain rfl : z = x := by simpa using hz
        rw [failed] at reply
        cases reply
      · obtain ⟨rfl, hz⟩ := List.append_inj' (show ys ++ [z] = [a, x] ++ [y] from split) rfl
        obtain rfl : z = y := by simpa using hz
        exact ⟨_, rfl, [a], x, z, _, _, e, rfl, hx, answered, hy, failed, rfl⟩

/-! ### The whole deployment -/

/-- Equipping containers leaves a keypair only where the copy of it fails. -/
theorem equipAll_leaves : ∀ (place : Nat) (containers : List String),
    (phase.equipAll position host configName place containers).LeavesFailedCopies host path
  | _, [] => .of_keyless (Program.everyCall_pure ())
  | place, _ :: containers =>
    equip_leaves.bind fun _ => equipAll_leaves (place + 1) containers

/-- **What a deployment leaves** was staged for a copy that failed. -/
theorem deploy_leaves :
    (phase.deploy settings position env).LeavesFailedCopies env.host path := by
  have put : ∀ file remote : String,
      (perform ⟨env.host, .put file remote⟩).LeavesFailedCopies env.host path :=
    fun _ _ => .of_keyless (everyCall_call id)
  have compose : ∀ subcommand : String, (perform (composeCall settings phase env
      subcommand)).LeavesFailedCopies env.host path :=
    fun subcommand => .of_keyless (everyCall_call (not_carriesKey_compose subcommand))
  refine (put _ _).bind fun _ => (compose _).bind fun _ => (compose _).bind fun _ =>
    (compose _).bind fun _ => ?_
  refine .bind (.of_keyless (Program.everyCall_ended _)) fun configName => ?_
  refine (put _ _).bind fun _ => (compose _).bind fun listing => ?_
  refine .bind (.of_keyless (Program.everyCall_ended _)) fun containers => ?_
  exact (equipAll_leaves 0 containers).bind fun _ => (compose _).bind fun _ =>
    .of_keyless (Program.everyCall_pure _)

/-- **A staged keypair stays exactly when its copy fails.** In every deployment
of a host, a file is left at a path if and only if the copy of the keypair that
is staged there is the last call, and fails with what the deployment fails with. -/
theorem staged_left_iff (phase : PhasePlan) (settings : Settings) (position : UInt64)
    (env : HostEnvironment) {σ : Type} (remote : Remote σ) (place : Nat) (s : σ) (t : Nat) :
    ∃ xs,
      ((phase.deploy settings position env).run remote place s t).events =
        xs.flatMap (Exchange.events place) ∧
      ∀ path, LeftAt path xs ↔ ∃ f,
        ((phase.deploy settings position env).run remote place s t).result = some (.error f) ∧
          CopyFails env.host path xs f := by
  obtain ⟨xs, events, runs⟩ := (phase.deploy settings position env).runs_run remote place s t
  exact ⟨xs, events, fun path => ⟨deploy_leaves _ _ _ _ runs, fun ⟨_, _, fails⟩ => fails.leftAt⟩⟩

end PhasePlan

/-- A host with one container that the keypair cannot be copied into. -/
def Script.fullHost : Script.Host :=
  { readyHost "b" ["x"] with
    rules := [⟨"docker cp ./node.yml_0.key", 0, none, refusal 1 "no space left on device"⟩] }

/-- A container that has no room for its keypair leaves it on the host. -/
theorem PhasePlan.staged_left_full :
    ∃ phase, make ["b"] ⟨"node.yml", "node.yml", "node"⟩ ⟨["k"]⟩ 1 = .ok phase ∧
      ∃ xs r, ((phase.deploy .standard (UInt64.ofNat 0) ⟨"b", "v1", none⟩).run
          (Script.remote [Script.fullHost]) 0 [] 0).events = xs.flatMap (Exchange.events 0) ∧
        ((phase.deploy .standard (UInt64.ofNat 0) ⟨"b", "v1", none⟩).run
          (Script.remote [Script.fullHost]) 0 [] 0).result = some r ∧
        LeftAt "./node.yml_0.key" xs := by
  have made : make ["b"] ⟨"node.yml", "node.yml", "node"⟩ ⟨["k"]⟩ 1 =
      .ok ⟨["b"], ⟨"node.yml", "node.yml", "node"⟩, ⟨["k"]⟩, ⟨1, 1, by decide⟩, 1, rfl⟩ := rfl
  refine ⟨_, made, ?_⟩
  obtain ⟨xs, events, runs⟩ := (PhasePlan.deploy ⟨["b"], ⟨"node.yml", "node.yml", "node"⟩, ⟨["k"]⟩,
    ⟨1, 1, by decide⟩, 1, rfl⟩ .standard (UInt64.ofNat 0) ⟨"b", "v1", none⟩).runs_run
      (Script.remote [Script.fullHost]) 0 [] 0
  obtain ⟨r, result, canonical⟩ := canonical_of_runs
    (hasKeys_of_make made (by decide) (i := 0) (by decide) "b")
    (show Settings.standard.configName = .ok "Config.toml" from rfl) runs
  have calls : xs.map Exchange.call = (xs.map Exchange.call).take 7 ++
      [stageCall "b" "./node.yml_0.key" "k", installCall "b" "./node.yml_0.key" "x"] := by
    rw [← issuedCalls_exchanges 0, ← events]
    decide +kernel
  obtain ⟨before, last, rfl, -, hlast⟩ := List.map_eq_append_iff.1 calls
  obtain ⟨x, rest, rfl, hx, hrest⟩ := List.map_eq_cons_iff.1 hlast
  obtain ⟨y, rfl, hy⟩ := List.map_eq_singleton_iff.1 hrest
  have answered : x.IsAnswered := canonical.answered x (by simp)
  refine ⟨_, r, events, result, before, x, [y], rfl, ⟨"k\n", by rw [hx]; rfl⟩, answered, ?_⟩
  intro z hz
  rw [List.mem_singleton.1 hz, hx, hy]
  decide +kernel

end Rollout
