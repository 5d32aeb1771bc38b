/-
# Every container has its own keypair

Two calls carry the keypair of a container: it is staged on the host, then
copied into the container from there.

| | of the container at place `j` on host `i`, with `k` containers on a host |
| --- | --- |
| keypair | `i * k + j` of the keystore |
| staged at | `./<compose file>_<i * k + j>.key` |

This is so in every execution of the phase, so what other hosts do, the schedule,
and hosts or keypairs that are added at the end make no difference.

Main statement: `PhasePlan.keypairs_assigned`.
-/

import Rollout.Proofs.Deployment.Run
import Rollout.Proofs.Keys.Layout
import Rollout.Proofs.Remote.Barrier

namespace Rollout

/-! ### Calls that carry a keypair -/

/-- The call stages a text, or copies a file to where a container has its
keypair. -/
def Call.CarriesKey (c : Call) : Prop :=
  match c.action with
  | .write _ _ => True
  | .run command environment => environment = [] ∧ "docker cp ".toList <+: command.toList ∧
      (":" ++ containerKeyPath).toList <:+ command.toList
  | .put _ _ => False

/-- Where the keypair at an index is staged. -/
def keyPath (fileName : String) (index : Nat) : String :=
  "./" ++ (fileName ++ "_" ++ toString index ++ ".key")

/-- The call that stages a keypair. -/
def stageCall (host path key : String) : Call :=
  ⟨host, .write (key ++ "\n") path⟩

/-- The call that copies a staged keypair into a container. -/
def installCall (host path container : String) : Call :=
  ⟨host, .run (copyCommand path container containerKeyPath) []⟩

/-- The path at which a keypair is staged has its index in it. -/
theorem stagingPath_ofNat {fileName : String} {index : Nat} (h : index < UInt64.size) :
    stagingPath fileName (UInt64.ofNat index) = keyPath fileName index := by
  have text : toString (UInt64.ofNat index) = toString index :=
    congrArg (toString : Nat → String) (UInt64.toNat_ofNat_of_lt' h)
  rw [stagingPath, text]
  rfl

section

variable {settings : Settings} {phase : PhasePlan} {env : HostEnvironment} {host : String}

/-- No compose call carries a keypair. -/
theorem not_carriesKey_compose (subcommand : String) :
    ¬ (composeCall settings phase env subcommand).CarriesKey := by
  rintro ⟨h, -⟩
  cases h

/-- Copying the node config carries no keypair. -/
theorem not_carriesKey_config (source container : String) :
    ¬ Call.CarriesKey ⟨host, .run (copyCommand source container containerConfigPath) []⟩ := by
  rintro ⟨-, -, front, h⟩
  have last := congrArg List.getLast? h
  change _ = ("docker cp " ++ source ++ " " ++ container ++ ":" ++
    containerConfigPath).toList.getLast? at last
  have key : containerKeyPath.toList.getLast? = some 'y' := by simp [containerKeyPath]
  have config : containerConfigPath.toList.getLast? = some 'l' := by simp [containerConfigPath]
  simp only [String.toList_append, List.getLast?_append, key, config, Option.some_or] at last
  exact absurd (Option.some.inj last) (by decide)

/-- Removing a file carries no keypair. -/
theorem not_carriesKey_remove (path : String) :
    ¬ Call.CarriesKey ⟨host, .run ("rm -f " ++ path) []⟩ := by
  rintro ⟨-, h, -⟩
  simp [String.toList_append] at h

/-- Reading a container carries no keypair. -/
theorem not_carriesKey_reading {c : Call} (h : ReadingCall host c) : ¬ c.CarriesKey := by
  cases h with
  | ports container =>
    rintro ⟨-, h, -⟩
    simp [String.toList_append] at h
  | logs container =>
    rintro ⟨-, h, -⟩
    simp [String.toList_append] at h

/-- Recreating the containers carries no keypair. -/
theorem not_carriesKey_recreate : ∀ c ∈ recreateCalls settings phase env, ¬ c.CarriesKey := by
  intro c hc
  simp only [recreateCalls, List.mem_cons, List.not_mem_nil, or_false] at hc
  rcases hc with rfl | rfl | rfl | rfl
  · exact id
  all_goals exact not_carriesKey_compose _

/-- Shipping the node config and listing the containers carries no keypair. -/
theorem not_carriesKey_list (configName : String) :
    ∀ c ∈ listCalls settings phase env configName, ¬ c.CarriesKey := by
  intro c hc
  simp only [listCalls, List.mem_cons, List.not_mem_nil, or_false] at hc
  rcases hc with rfl | rfl
  · exact id
  · exact not_carriesKey_compose _

end

/-! ### Calls in a row -/

/-- In a row of calls every call that carries a keypair is for one of the
containers: its keypair is staged, and the next call copies it into the
container. -/
def Paired (host : String) (path key : Nat → String) (place : Nat) (containers : List String)
    (cs : List Call) : Prop :=
  ∀ before c after, cs = before ++ c :: after → c.CarriesKey →
    ∃ j container, containers[j]? = some container ∧
      ((c = stageCall host (path (place + j)) (key (place + j)) ∧
          ∃ rest, after = installCall host (path (place + j)) container :: rest) ∨
        (c = installCall host (path (place + j)) container ∧
          ∃ earlier, before = earlier ++ [stageCall host (path (place + j)) (key (place + j))]))

namespace Paired

variable {host : String} {path key : Nat → String} {place : Nat} {containers : List String}
  {cs ds : List Call}

/-- Calls that carry no keypair go with any containers. -/
theorem of_not_carriesKey (h : ∀ c ∈ cs, ¬ c.CarriesKey) :
    Paired host path key place containers cs := by
  rintro before c after rfl hc
  exact absurd hc (h c (by simp))

/-- Two rows whose pairs are for the same containers. -/
theorem append (hc : Paired host path key place containers cs)
    (hd : Paired host path key place containers ds) :
    Paired host path key place containers (cs ++ ds) := by
  intro before c after h carries
  rcases append_eq_append_cons h with ⟨mid, hmid, rfl⟩ | ⟨mid, rfl, hmid⟩
  · obtain ⟨j, container, hj, ⟨hcall, rest, rfl⟩ | ⟨hcall, earlier, hearlier⟩⟩ :=
      hc _ _ _ hmid carries
    · exact ⟨j, container, hj, .inl ⟨hcall, rest ++ ds, rfl⟩⟩
    · exact ⟨j, container, hj, .inr ⟨hcall, earlier, hearlier⟩⟩
  · obtain ⟨j, container, hj, ⟨hcall, rest, hrest⟩ | ⟨hcall, earlier, rfl⟩⟩ :=
      hd _ _ _ hmid carries
    · exact ⟨j, container, hj, .inl ⟨hcall, rest, hrest⟩⟩
    · exact ⟨j, container, hj, .inr ⟨hcall, cs ++ earlier, (List.append_assoc ..).symm⟩⟩

/-- The calls that equip a container carry its keypair, and those behind them the keypairs of the
others. -/
theorem equip (configName container : String) :
    Paired host path key place (container :: containers)
      (equipCalls host configName (path place) (key place) container) := by
  intro before c after h carries
  -- The call is the first, second, third or fourth of the row.
  rcases before with _ | ⟨a, _ | ⟨b, _ | ⟨d, _ | ⟨e, before⟩⟩⟩⟩ <;>
    simp only [equipCalls, List.nil_append, List.cons_append, List.cons.injEq, reduceCtorEq,
      and_false, List.nil_eq, List.append_eq_nil_iff] at h
  · obtain ⟨rfl, -⟩ := h
    exact absurd carries (not_carriesKey_config _ _)
  · obtain ⟨-, rfl, rfl⟩ := h
    exact ⟨0, container, rfl, .inl ⟨rfl, _, rfl⟩⟩
  · obtain ⟨rfl, rfl, rfl, rfl⟩ := h
    exact ⟨0, container, rfl, .inr ⟨rfl, [_], rfl⟩⟩
  · obtain ⟨-, -, -, rfl, -⟩ := h
    exact absurd carries (not_carriesKey_remove _)

/-- The pairs of later containers are pairs of all containers. -/
theorem cons {container : String} (h : Paired host path key (place + 1) containers cs) :
    Paired host path key place (container :: containers) cs := by
  intro before c after hcs carries
  obtain ⟨j, other, hj, pair⟩ := h before c after hcs carries
  refine ⟨j + 1, other, hj, ?_⟩
  rwa [show place + (j + 1) = place + 1 + j by omega]

/-- **The calls that equip containers** are paired. -/
theorem equipAll (configName : String) : ∀ (place : Nat) (containers : List String),
    Paired host path key place containers
      (equipAllCalls host configName path key place containers)
  | _, [] => of_not_carriesKey fun _ h => absurd h List.not_mem_nil
  | place, container :: containers =>
    (equip configName container).append (equipAll configName (place + 1) containers).cons

end Paired

/-! ### The deployment of one host -/

namespace PhasePlan

variable {phase : PhasePlan} {settings : Settings} {position : UInt64} {env : HostEnvironment}
  {path key : Nat → String} {t t' : Nat} {xs : List Exchange}

/-- The containers of this host have these keypairs, which are staged there. -/
def HasKeys (phase : PhasePlan) (position : UInt64) (host : String) (path key : Nat → String) :
    Prop :=
  ∀ j container, j < phase.layout.perHost.toNat →
    ∃ index, phase.keypairOf position host j container = .ok (index, key j) ∧
      stagingPath phase.compose.fileName index = path j

/-- The exchanges carry no keypair; or the containers are listed, and the calls
are the first of a row that is paired for them, all of it if the run succeeds. -/
def KeyedFor {β : Type} (phase : PhasePlan) (settings : Settings) (env : HostEnvironment)
    (path key : Nat → String) (xs : List Exchange) (o : Option (Except Failure β)) : Prop :=
  (∀ x ∈ xs, ¬ x.call.CarriesKey) ∨
    ∃ x ∈ xs, ∃ listing row, x.call = composeCall settings phase env "ps -q" ∧
      x.reply = .ok listing ∧ (listedIds listing).length = phase.layout.perHost.toNat ∧
      Paired env.host path key 0 (listedIds listing) row ∧ xs.map Exchange.call <+: row ∧
      ∀ b, o = some (.ok b) → xs.map Exchange.call = row

/-- What has come to calls without keypairs only has given nobody a keypair. -/
theorem KeyedFor.of_le {β : Type} {o : Option (Except Failure β)} {cs : List Call}
    (hle : xs.map Exchange.call <+: cs) (free : ∀ c ∈ cs, ¬ c.CarriesKey) :
    phase.KeyedFor settings env path key xs o :=
  .inl fun _ hx => free _ (hle.subset (List.mem_map_of_mem hx))

/-- The keypairs that were carried are the same when the run fails later. -/
theorem KeyedFor.of_failed {β γ : Type} {o : Option (Except Failure β)}
    {o' : Option (Except Failure γ)} (h : phase.KeyedFor settings env path key xs o)
    (failed : ∀ c, o' ≠ some (.ok c)) : phase.KeyedFor settings env path key xs o' := by
  rcases h with free | ⟨x, hx, listing, row, hcall, reply, count, paired, calls, -⟩
  · exact .inl free
  · exact .inr ⟨x, hx, listing, row, hcall, reply, count, paired, calls,
      fun c hc => absurd hc (failed c)⟩

/-- Nothing before the containers are equipped carries a keypair. -/
theorem not_carriesKey_shipped (configName : String) :
    ∀ c ∈ recreateCalls settings phase env ++ listCalls settings phase env configName,
      ¬ c.CarriesKey := by
  intro c hc
  rcases List.mem_append.1 hc with hc | hc
  · exact not_carriesKey_recreate c hc
  · exact not_carriesKey_list configName c hc

/-- What is left to do once the containers are listed is a list of calls. -/
theorem finish_eq (keys : phase.HasKeys position env.host path key) {configName : String}
    {containers : List String} (count : containers.length = phase.layout.perHost.toNat) :
    phase.finish settings position env configName containers = (do
      performAll (equipAllCalls env.host configName path key 0 containers ++
        [composeCall settings phase env "restart"])
      return containers) := by
  have equip : phase.equipAll position env.host configName 0 containers =
      performAll (equipAllCalls env.host configName path key 0 containers) :=
    phase.equipAll_eq fun j c _ hj => keys j c (by omega)
  rw [finish, equip, performAll_append, bind_assoc]

/-- What is left to do once the containers are listed is paired. -/
theorem finish_paired (keys : phase.HasKeys position env.host path key) {configName : String}
    {containers : List String} (count : containers.length = phase.layout.perHost.toNat)
    {o : Option (Except Failure (List String))}
    (h : (phase.finish settings position env configName containers).Runs t xs o t') :
    ∃ row, Paired env.host path key 0 containers row ∧ xs.map Exchange.call <+: row ∧
      ∀ ids, o = some (.ok ids) → xs.map Exchange.call = row := by
  have equipped : Paired env.host path key 0 containers
      (equipAllCalls env.host configName path key 0 containers) :=
    .equipAll configName 0 containers
  have restart : ∀ c ∈ [composeCall settings phase env "restart"], ¬ c.CarriesKey :=
    fun c hc => List.mem_singleton.1 hc ▸ not_carriesKey_compose "restart"
  refine ⟨_, equipped.append (.of_not_carriesKey restart), ?_⟩
  rw [finish_eq keys count] at h
  rcases Program.Runs.of_performAll_bind h with ⟨ys, zs, _, rfl, all, h⟩ | ⟨f, rfl, stopped⟩
  · obtain ⟨rfl, -, -⟩ := Program.Runs.of_pure h
    rw [List.append_nil]
    exact ⟨all.le, fun _ _ => all.1⟩
  · exact ⟨stopped.le, nofun⟩

/-- **The deployment of a host gives every listed container its keypair.** -/
theorem deploy_keyed (keys : phase.HasKeys position env.host path key)
    {o : Option (Except Failure (List String))}
    (h : (phase.deploy settings position env).Runs t xs o t') :
    phase.KeyedFor settings env path key xs o := by
  cases phase.course h with
  | notRecreated stopped => exact .of_le stopped.le not_carriesKey_recreate
  | unnamed name completed => exact .of_le completed.le not_carriesKey_recreate
  | @notListed _ _ configName name stopped =>
    exact .of_le stopped.le (not_carriesKey_shipped configName)
  | @wrongCount _ _ _ configName _ name completed reply count =>
    exact .of_le completed.le (not_carriesKey_shipped configName)
  | @listed us zs x listing configName _ between _ name completed reply count rest =>
    obtain ⟨row, paired, calls, all⟩ := finish_paired keys count rest
    have hcall := call_of_listed completed
    have shipped : Paired env.host path key 0 (listedIds listing)
        (recreateCalls settings phase env ++ listCalls settings phase env configName) :=
      .of_not_carriesKey (not_carriesKey_shipped configName)
    refine .inr ⟨x, by simp, listing, _, hcall, reply, count, shipped.append paired, ?_, ?_⟩
    · rw [List.map_append, completed.1]
      exact (List.prefix_append_right_inj _).2 calls
    · intro ids ho
      rw [List.map_append, completed.1, all ids ho]

/-- **A host gives its containers their keypairs in listing order**, and only to those that it
comes to. -/
theorem deployNodes_keyed {patience : Nat} (keys : phase.HasKeys position env.host path key)
    {o : Option (Except Failure (List ContainerInfo))}
    (h : (phase.deployNodes settings patience position env).Runs t xs o t') :
    phase.KeyedFor settings env path key xs o := by
  rcases Program.Runs.of_bind h with
    ⟨ids, ys, zs, _, rfl, deployed, read⟩ | ⟨f, rfl, failed⟩ | ⟨rfl, cut⟩
  · have readings : ∀ c ∈ zs.map Exchange.call, ¬ c.CarriesKey := by
      intro c hc
      obtain ⟨z, hz, rfl⟩ := List.mem_map.1 hc
      exact not_carriesKey_reading (read.everyCall
        (Container.everyCall_awaitReady patience env.host ids settings.readiness) z hz)
    rcases deploy_keyed keys deployed with
      free | ⟨x, hx, listing, row, hcall, reply, count, paired, -, all⟩
    · refine .inl fun x hx => ?_
      rcases List.mem_append.1 hx with hx | hx
      · exact free x hx
      · exact readings _ (List.mem_map_of_mem hx)
    · refine .inr ⟨x, List.mem_append_left _ hx, listing, _, hcall, reply, count,
        paired.append (.of_not_carriesKey readings), ?_⟩
      rw [List.map_append, all ids rfl]
      exact ⟨List.prefix_refl _, fun _ _ => rfl⟩
  · exact (deploy_keyed keys failed).of_failed fun _ ho => by cases ho
  · exact (deploy_keyed keys cut).of_failed fun _ ho => by cases ho

/-! ### All hosts of a phase -/

/-- At position `i` every call that carries a keypair is for a container that the
host there has listed: for the one at place `j`, the keypair is that of the
keystore at `i * k + j`. It is staged under its index, and the next call copies
it into that container. -/
def AssignsKeys (phase : PhasePlan) (settings : Settings) (bootstrap : Option Multiaddr)
    (keystore : Keystore) (es : List Event) (i : Nat) : Prop :=
  ∀ before c after, callsAt i es = before ++ c :: after → c.CarriesKey →
    ∃ host now listing j container key path,
      phase.hosts[i]? = some host ∧
      .returned i now (composeCall settings phase ⟨host, settings.tag, bootstrap⟩ "ps -q")
        (.ok listing) ∈ es ∧
      (listedIds listing).length = phase.layout.perHost.toNat ∧
      (listedIds listing)[j]? = some container ∧
      keystore.get? (i * phase.layout.perHost.toNat + j) = some key ∧
      path = keyPath phase.compose.fileName (i * phase.layout.perHost.toNat + j) ∧
      ((c = stageCall host path key ∧
          (after = [] ∨ ∃ rest, after = installCall host path container :: rest)) ∨
        (c = installCall host path container ∧
          ∃ earlier, before = earlier ++ [stageCall host path key]))

/-- The containers of a position have the keypairs of the keystore from
`i * k` on. -/
def KeysFrom (phase : PhasePlan) (keystore : Keystore) (i : Nat) : Prop :=
  ∀ j < phase.layout.perHost.toNat, i * phase.layout.perHost.toNat + j < UInt64.size ∧
    ∃ key, keystore.get? (i * phase.layout.perHost.toNat + j) = some key ∧
      ∀ host container, phase.keypairOf (UInt64.ofNat i) host j container =
        .ok (UInt64.ofNat (i * phase.layout.perHost.toNat + j), key)

/-- Keypairs from the keystore are at the paths and in the order that the position of the host
says. -/
theorem KeysFrom.hasKeys {keystore : Keystore} {i : Nat} (keys : phase.KeysFrom keystore i)
    (host : String) :
    phase.HasKeys (UInt64.ofNat i) host
      (fun j => keyPath phase.compose.fileName (i * phase.layout.perHost.toNat + j))
      fun j => (keystore.get? (i * phase.layout.perHost.toNat + j)).getD "" := by
  intro j container hj
  obtain ⟨lt, key, hget, hkey⟩ := keys j hj
  refine ⟨UInt64.ofNat (i * phase.layout.perHost.toNat + j), ?_, stagingPath_ofNat lt⟩
  simp only [hkey, hget, Option.getD_some]

/-- No call is made at a position without a host. -/
theorem callsAt_eq_nil {σ : Type} {settings : Settings} {patience : Nat}
    {bootstrap : Option Multiaddr} (remote : Remote σ) (mode : Mode) (s : σ) (t : Nat) {i : Nat}
    (hi : phase.hosts[i]? = none) :
    callsAt i (execute remote mode (phase.tasks settings patience bootstrap) s t).events = [] := by
  rw [callsAt, eventsAt_eq_nil, List.filterMap_nil]
  intro e he
  have lt := execute_position remote mode _ s t e he
  have ge := List.getElem?_eq_none_iff.1 hi
  rw [length_tasks] at lt
  omega

/-- **A position whose containers have the keypairs from `i * k` on** gives them
these keypairs, in every execution. -/
theorem KeysFrom.assignsKeys {σ : Type} {keystore : Keystore} {i : Nat}
    (keys : phase.KeysFrom keystore i) (settings : Settings) (patience : Nat)
    (bootstrap : Option Multiaddr) (remote : Remote σ) (mode : Mode) (s : σ) (t : Nat) :
    phase.AssignsKeys settings bootstrap keystore
      (execute remote mode (phase.tasks settings patience bootstrap) s t).events i := by
  intro before c after hcalls carries
  cases hi : phase.hosts[i]? with
  | none =>
    rw [callsAt_eq_nil remote mode s t hi] at hcalls
    simp at hcalls
  | some host =>
    rcases execute_task remote mode s t (getElem?_tasks_of_host hi) with
      skipped | ⟨xs, o, begun, ended, -, took⟩
    · rw [callsAt, skipped.events] at hcalls
      simp at hcalls
    obtain ⟨o', runs, -⟩ := Program.Runs.of_ending took.runs
    have calls := callsAt_of_taskEvents took.events
    rcases deployNodes_keyed (keys.hasKeys host) runs with
      free | ⟨x, hx, listing, row, hcall, reply, count, paired, le, -⟩
    · have mem : c ∈ xs.map Exchange.call := by
        rw [← calls, hcalls]
        simp
      obtain ⟨x, hx, rfl⟩ := List.mem_map.1 mem
      exact absurd carries (free x hx)
    -- What was called is the beginning of a paired row.
    rw [← calls, hcalls] at le
    obtain ⟨later, hrow⟩ := le
    rw [List.append_assoc, List.cons_append] at hrow
    obtain ⟨j, container, hj, pair⟩ := paired before c (after ++ later) hrow.symm carries
    obtain ⟨-, key, hget, -⟩ := keys j (count ▸ (List.getElem?_eq_some_iff.1 hj).1)
    simp only [Nat.zero_add, hget, Option.getD_some] at pair
    refine ⟨host, x.returned, listing, j, container, key, _, rfl, ?_, count, hj, hget, rfl, ?_⟩
    · rw [← hcall, ← reply]
      exact Exchange.returned_mem hx took.events
    rcases pair with ⟨hc, rest, hafter⟩ | copied
    · refine .inl ⟨hc, ?_⟩
      cases after with
      | nil => exact .inl rfl
      | cons d after => exact .inr ⟨after, by rw [(List.cons.inj hafter).1]⟩
    · exact .inr copied

variable {hosts more : List String} {compose : ComposeFile} {keystore : Keystore}
  {moreKeys : List String} {perHost : UInt64} {phase' : PhasePlan}

/-- The keypairs of a host do not depend on the hosts and keypairs after its
own. -/
theorem keysFrom_of_make
    (made : make (hosts ++ more) compose ⟨keystore.keypairs ++ moreKeys⟩ perHost = .ok phase)
    (fits : (hosts ++ more).length * perHost.toNat < UInt64.size)
    (enough : hosts.length * perHost.toNat ≤ keystore.size) {i : Nat} (hi : i < hosts.length) :
    phase.KeysFrom keystore i := by
  obtain ⟨-, -, -, -, rfl, -⟩ := of_make made
  intro j hj
  have hi' : i < (hosts ++ more).length := by
    rw [List.length_append]
    omega
  have place : i * phase.layout.perHost.toNat + j < keystore.keypairs.length :=
    Nat.lt_of_lt_of_le (KeyLayout.position_lt hi hj) enough
  obtain ⟨key, hget, -⟩ := keypairOf_eq made fits hi' hj "" ""
  refine ⟨Nat.lt_trans (KeyLayout.position_lt hi' hj) fits, key, ?_, fun host container => ?_⟩
  · rw [← hget, Keystore.get?, Keystore.get?, List.getElem?_append_left place]
  · obtain ⟨key', hget', hkey⟩ := keypairOf_eq made fits hi' hj host container
    rw [hkey, Option.some.inj (hget.symm.trans hget')]

/-- **Every container has its own keypair.** In every execution of a phase that
was made, the container at place `j` on host `i` is given the keypair at
`i * k + j`. No other container has that index, nor its keypair when no two
keypairs of the keystore are equal, and all of this stays so when hosts and
keypairs are added at the end. -/
theorem keypairs_assigned (made : make hosts compose keystore perHost = .ok phase)
    (fits : hosts.length * perHost.toNat < UInt64.size) :
    (∀ (σ : Type) (remote : Remote σ) (mode : Mode) (settings : Settings) (patience : Nat)
      (bootstrap : Option Multiaddr) (s : σ) (t i : Nat),
      phase.AssignsKeys settings bootstrap keystore
        (execute remote mode (phase.tasks settings patience bootstrap) s t).events i) ∧
    (∀ i j i' j', j < perHost.toNat → j' < perHost.toNat → (i, j) ≠ (i', j') →
      i * perHost.toNat + j ≠ i' * perHost.toNat + j' ∧
      (keystore.keypairs.Nodup → ∀ key, keystore.get? (i * perHost.toNat + j) = some key →
        keystore.get? (i' * perHost.toNat + j') ≠ some key)) ∧
    ∀ (more moreKeys : List String) (phase' : PhasePlan),
      make (hosts ++ more) compose ⟨keystore.keypairs ++ moreKeys⟩ perHost = .ok phase' →
      (hosts ++ more).length * perHost.toNat < UInt64.size → ∀ i < hosts.length,
      (∀ j < perHost.toNat, ∀ host container,
        phase'.keypairOf (UInt64.ofNat i) host j container =
          phase.keypairOf (UInt64.ofNat i) host j container) ∧
      ∀ (σ : Type) (remote : Remote σ) (mode : Mode) (settings : Settings) (patience : Nat)
        (bootstrap : Option Multiaddr) (s : σ) (t : Nat),
        phase'.AssignsKeys settings bootstrap keystore
          (execute remote mode (phase'.tasks settings patience bootstrap) s t).events i := by
  obtain ⟨hhosts, -, -, -, hperHost, -⟩ := of_make made
  have enough := (le_size_of_make made (few_of_make made fits)).1
  -- The phase is one that has grown by no hosts and no keypairs.
  have own : ∀ i < hosts.length, phase.KeysFrom keystore i := by
    have made' : make (hosts ++ []) compose ⟨keystore.keypairs ++ []⟩ perHost = .ok phase := by
      rw [List.append_nil, List.append_nil]
      exact made
    have fits' : (hosts ++ []).length * perHost.toNat < UInt64.size := by
      rw [List.append_nil]
      exact fits
    exact fun i hi => keysFrom_of_make made' fits' enough hi
  refine ⟨?_, ?_, ?_⟩
  · intro σ remote mode settings patience bootstrap s t i
    by_cases hi : i < hosts.length
    · exact (own i hi).assignsKeys settings patience bootstrap remote mode s t
    · intro before c after hcalls
      have none : phase.hosts[i]? = none :=
        List.getElem?_eq_none (hhosts ▸ Nat.le_of_not_lt hi)
      rw [callsAt_eq_nil remote mode s t none] at hcalls
      simp at hcalls
  · intro i j i' j' hj hj' hne
    have differ : i * perHost.toNat + j ≠ i' * perHost.toNat + j' := by
      intro h
      obtain ⟨rfl, rfl⟩ := KeyLayout.position_injective hj hj' h
      exact hne rfl
    refine ⟨differ, fun nodup key hget hget' => differ ?_⟩
    exact (List.getElem?_inj (List.getElem?_eq_some_iff.1 hget).1 nodup).1 (hget.trans hget'.symm)
  · intro more moreKeys phase' made' fits' i hi
    have keys := keysFrom_of_make made' fits' enough hi
    refine ⟨fun j hj host container => ?_, fun σ remote mode settings patience bootstrap s t =>
      keys.assignsKeys settings patience bootstrap remote mode s t⟩
    obtain ⟨-, -, -, -, hperHost', -⟩ := of_make made'
    obtain ⟨-, key, hget, hkey⟩ := own i hi j (hperHost ▸ hj)
    obtain ⟨-, key', hget', hkey'⟩ := keys j (hperHost' ▸ hj)
    rw [hperHost] at hget hkey
    rw [hperHost'] at hget' hkey'
    rw [hkey, hkey', Option.some.inj (hget.symm.trans hget')]

/-- Two hosts with two containers each have the four keypairs of a keystore. -/
theorem keypairs_assigned_grid :
    ∃ phase, make ["b", "c"] ⟨"node.yml", "node.yml", "node"⟩ ⟨["k", "l", "m", "n"]⟩ 2 = .ok phase ∧
      ["b", "c"].length * (2 : UInt64).toNat < UInt64.size ∧
      stageCall "c" "./node.yml_3.key" "n" ∈ callsAt 1 (execute
        (Script.remote [Script.readyHost "b" ["v", "w"], Script.readyHost "c" ["x", "y"]])
        .inOrder (phase.tasks .standard 1 none) [] 0).events ∧
      phase.AssignsKeys .standard none ⟨["k", "l", "m", "n"]⟩ (execute
        (Script.remote [Script.readyHost "b" ["v", "w"], Script.readyHost "c" ["x", "y"]])
        .inOrder (phase.tasks .standard 1 none) [] 0).events 1 := by
  have made : make ["b", "c"] ⟨"node.yml", "node.yml", "node"⟩ ⟨["k", "l", "m", "n"]⟩ 2 =
      .ok ⟨["b", "c"], ⟨"node.yml", "node.yml", "node"⟩, ⟨["k", "l", "m", "n"]⟩,
        ⟨2, 2, by decide⟩, 4, rfl⟩ := rfl
  have fits : ["b", "c"].length * (2 : UInt64).toNat < UInt64.size := by decide
  refine ⟨_, made, fits, by decide +kernel, ?_⟩
  exact (keypairs_assigned made fits).1 _ _ .inOrder .standard 1 none [] 0 1

end PhasePlan

end Rollout
