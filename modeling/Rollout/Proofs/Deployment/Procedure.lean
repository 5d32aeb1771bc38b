/-
# The procedure of a host

The calls of a host's deployment are known before any reply, but for the
containers of its listing:

| part | calls |
| --- | --- |
| `recreateCalls` | put the compose file, `pull`, `rm -fs`, `up --no-start` |
| `listCalls` | put the node config, `ps -q` |
| `equipCalls`, for every container | copy the config, write the keypair, copy it, remove it |
| the last | `restart` |

Main statement: `PhasePlan.course`. A deployment stops at the first call that
fails, or because the node config has no name or the listing not the right
length, or it goes on to equip the listed containers.
-/

import Rollout.Deployment.Host
import Rollout.Proofs.Remote.Sequence

namespace Rollout

/-- The calls that recreate the containers of a host. -/
def recreateCalls (settings : Settings) (phase : PhasePlan) (env : HostEnvironment) : List Call :=
  [⟨env.host, .put phase.compose.path (inWorkingDirectory phase.compose.fileName)⟩,
    composeCall settings phase env "pull", composeCall settings phase env "rm -fs",
    composeCall settings phase env "up --no-start"]

/-- The calls that ship the node config and list the containers. -/
def listCalls (settings : Settings) (phase : PhasePlan) (env : HostEnvironment)
    (configName : String) : List Call :=
  [⟨env.host, .put settings.configFile (inWorkingDirectory configName)⟩,
    composeCall settings phase env "ps -q"]

/-- The calls that give a container the config, and a keypair that is staged at
a path. -/
def equipCalls (host configName path key container : String) : List Call :=
  [⟨host, .run (copyCommand (inWorkingDirectory configName) container containerConfigPath) []⟩,
    ⟨host, .write (key ++ "\n") path⟩,
    ⟨host, .run (copyCommand path container containerKeyPath) []⟩,
    ⟨host, .run ("rm -f " ++ path) []⟩]

/-- The calls that equip containers, the first of them at `place`. The path and
the keypair of every place are given. -/
def equipAllCalls (host configName : String) (path key : Nat → String) :
    (place : Nat) → List String → List Call
  | _, [] => []
  | place, container :: containers =>
    equipCalls host configName (path place) (key place) container ++
      equipAllCalls host configName path key (place + 1) containers

namespace PhasePlan

variable (phase : PhasePlan) {settings : Settings} {position : UInt64} {env : HostEnvironment}

/-- A container with a keypair is equipped by a list of calls. -/
theorem equip_eq {host configName container path key : String} {place : Nat} {index : UInt64}
    (hk : phase.keypairOf position host place container = .ok (index, key))
    (hp : stagingPath phase.compose.fileName index = path) :
    phase.equip position host configName place container =
      performAll (equipCalls host configName path key container) := by
  rw [equip, hk, ← hp]
  rfl

/-- **Containers whose keypairs exist are equipped** by a list of calls. -/
theorem equipAll_eq {host configName : String} {path key : Nat → String} :
    ∀ {place : Nat} {containers : List String},
      (∀ j container, place ≤ j → j < place + containers.length →
        ∃ index, phase.keypairOf position host j container = .ok (index, key j) ∧
          stagingPath phase.compose.fileName index = path j) →
      phase.equipAll position host configName place containers =
        performAll (equipAllCalls host configName path key place containers)
  | _, [], _ => rfl
  | place, container :: containers, h => by
    rw [List.length_cons] at h
    obtain ⟨index, hk, hp⟩ := h place container (Nat.le_refl _) (by omega)
    rw [equipAll, equipAllCalls, performAll_append, phase.equip_eq hk hp,
      equipAll_eq fun j c hle hlt => h j c (by omega) (by omega)]

/-- The containers pass when there are as many as the layout says. -/
theorem checkCount_eq_ok {host : String} {containers counted : List String} :
    phase.checkCount host containers = .ok counted ↔
      counted = containers ∧ containers.length = phase.layout.perHost.toNat := by
  unfold checkCount
  split <;> simp_all [eq_comm]

/-- Any other number of containers fails, and the failure tells both numbers. -/
theorem checkCount_eq_error {host : String} {containers : List String} {f : Failure} :
    phase.checkCount host containers = .error f ↔
      containers.length ≠ phase.layout.perHost.toNat ∧
        f = .of (.containerCount host containers.length phase.compose.service
          phase.layout.perHost.toNat) := by
  unfold checkCount
  split <;> simp_all [eq_comm]

/-- What is left to do once the containers are listed. -/
def finish (phase : PhasePlan) (settings : Settings) (position : UInt64) (env : HostEnvironment)
    (configName : String) (containers : List String) : Program Failure (List String) := do
  phase.equipAll position env.host configName 0 containers
  performAll [composeCall settings phase env "restart"]
  return containers

/-- **The deployment of a host** is a list of calls up to the listing, and depends on what is
listed behind it. -/
theorem deploy_eq (settings : Settings) (position : UInt64) (env : HostEnvironment) :
    phase.deploy settings position env = (do
      performAll (recreateCalls settings phase env)
      let configName ← .ended settings.configName
      performAll [⟨env.host, .put settings.configFile (inWorkingDirectory configName)⟩]
      let listing ← perform (composeCall settings phase env "ps -q")
      let containers ← .ended (phase.checkCount env.host (listedIds listing))
      phase.finish settings position env configName containers) := by
  simp only [deploy, finish, recreateCalls, performAll, bind_assoc, pure_bind]

/-- How far a deployment comes, with which exchanges and which result. -/
inductive Course (phase : PhasePlan) (settings : Settings) (position : UInt64)
    (env : HostEnvironment) : List Exchange → Option (Except Failure (List String)) → Prop where
  | notRecreated {xs : List Exchange} {f : Failure}
    (stopped : StoppedIn (recreateCalls settings phase env) xs f) :
    Course phase settings position env xs (some (.error f))
  | unnamed {xs : List Exchange} {f : Failure} (name : settings.configName = .error f)
    (completed : CompletedIn (recreateCalls settings phase env) xs) :
    Course phase settings position env xs (some (.error f))
  | notListed {xs : List Exchange} {f : Failure} {configName : String}
    (name : settings.configName = .ok configName)
    (stopped : StoppedIn
      (recreateCalls settings phase env ++ listCalls settings phase env configName) xs f) :
    Course phase settings position env xs (some (.error f))
  | wrongCount {xs : List Exchange} {x : Exchange} {listing configName : String} {f : Failure}
    (name : settings.configName = .ok configName)
    (completed : CompletedIn
      (recreateCalls settings phase env ++ listCalls settings phase env configName) (xs ++ [x]))
    (reply : x.reply = .ok listing)
    (count : phase.checkCount env.host (listedIds listing) = .error f) :
    Course phase settings position env (xs ++ [x]) (some (.error f))
  | listed {xs zs : List Exchange} {x : Exchange} {listing configName : String}
    {o : Option (Except Failure (List String))} {between t' : Nat}
    (name : settings.configName = .ok configName)
    (completed : CompletedIn
      (recreateCalls settings phase env ++ listCalls settings phase env configName) (xs ++ [x]))
    (reply : x.reply = .ok listing)
    (count : (listedIds listing).length = phase.layout.perHost.toNat)
    (rest : (phase.finish settings position env configName (listedIds listing)).Runs between zs
      o t') :
    Course phase settings position env (xs ++ [x] ++ zs) o

variable {t t' : Nat} {xs : List Exchange}

/-- **Every run of a deployment takes one of the courses.** -/
theorem course {o : Option (Except Failure (List String))}
    (h : (phase.deploy settings position env).Runs t xs o t') :
    phase.Course settings position env xs o := by
  rw [deploy_eq] at h
  rcases Program.Runs.of_performAll_bind h with ⟨us, vs, _, rfl, recreated, h₁⟩ | ⟨f, rfl, stopped⟩
  · cases hc : settings.configName with
    | error f =>
      rw [hc] at h₁
      obtain ⟨rfl, rfl, -⟩ := Program.Runs.of_fail h₁
      rw [List.append_nil]
      exact .unnamed hc recreated
    | ok configName =>
      rw [hc] at h₁
      rcases Program.Runs.of_performAll_bind h₁ with
        ⟨ws, zs, listed, rfl, put, h₂⟩ | ⟨f, rfl, stopped⟩
      · have shipped := recreated.append put
        rcases Program.Runs.of_perform_bind h₂ with
          ⟨listing, back, rest, rfl, -, h₃⟩ | ⟨e, rfl, -, rfl⟩
        · have completed : CompletedIn
              (recreateCalls settings phase env ++ listCalls settings phase env configName)
              (us ++ ws ++ [⟨listed, composeCall settings phase env "ps -q", back, .ok listing⟩]) :=
            shipped.append (.singleton ⟨listing, rfl⟩)
          -- The listing is the last call that does not depend on what is listed.
          have split : ∀ x, us ++ (ws ++ x :: rest) = us ++ ws ++ [x] ++ rest := fun x => by simp
          rw [split]
          cases checked : phase.checkCount env.host (listedIds listing) with
          | ok containers =>
            rw [checked] at h₃
            obtain ⟨rfl, count⟩ := phase.checkCount_eq_ok.1 checked
            exact .listed hc completed rfl count h₃
          | error f =>
            rw [checked] at h₃
            obtain ⟨rfl, rfl, -⟩ := Program.Runs.of_fail h₃
            rw [List.append_nil]
            exact .wrongCount hc completed rfl checked
        · have stopped := StoppedIn.append shipped (StoppedIn.singleton
            (x := ⟨listed, composeCall settings phase env "ps -q", t', .error e⟩) rfl)
          rw [List.append_assoc us] at stopped
          exact .notListed hc stopped
      · exact .notListed hc (.append recreated (stopped.mono (List.prefix_append [_] [_])))
  · exact .notRecreated stopped

/-- The last of the calls up to the listing lists the containers. -/
theorem call_of_listed {phase : PhasePlan} {configName : String} {x : Exchange}
    (completed : CompletedIn
      (recreateCalls settings phase env ++ listCalls settings phase env configName) (xs ++ [x])) :
    x.call = composeCall settings phase env "ps -q" := by
  have last := congrArg List.getLast? completed.1
  simpa [listCalls] using last

/-- **A deployment that succeeds** names the containers of its listing, and they
are as many as the layout says. -/
theorem deploy_ok {ids : List String}
    (h : (phase.deploy settings position env).Runs t xs (some (.ok ids)) t') :
    ids.length = phase.layout.perHost.toNat ∧ ∃ x ∈ xs, ∃ listing,
      x.call = composeCall settings phase env "ps -q" ∧ x.reply = .ok listing ∧
      ids = listedIds listing := by
  generalize ho : some (Except.ok ids) = o at h
  cases phase.course h with
  | notRecreated | unnamed | notListed | wrongCount => cases ho
  | @listed us zs x listing configName _ between _ name completed reply count rest =>
    subst ho
    obtain ⟨_, _, _, _, _, _, rest⟩ := Program.Runs.of_bind_ok rest
    obtain ⟨_, _, _, _, _, _, rest⟩ := Program.Runs.of_bind_ok rest
    obtain ⟨-, hids, -⟩ := Program.Runs.of_pure rest
    obtain rfl : ids = listedIds listing := by simpa using hids
    exact ⟨count, x, by simp, listing, call_of_listed completed, reply, rfl⟩

end PhasePlan
end Rollout
