/-
# The canonical sequence

Behind every deployment of a host stands one list of calls, `canonicalCalls`. It
is known up to the containers of the listing:

| the deployment | its calls | its result |
| --- | --- | --- |
| succeeds | the whole list, all answered | the listed containers |
| makes a call that fails | the first of the list, the failed call last | the failure of that call |
| lists too many or too few containers | the list up to the listing | the wrong count |

Main statement: `PhasePlan.deploy_canonical`.
-/

import Rollout.Proofs.Deployment.Keypairs

namespace Rollout

/-- The calls of a deployment up to the start of the containers. The path and the
keypair of every place are given. -/
def preparingCalls (settings : Settings) (phase : PhasePlan) (env : HostEnvironment)
    (configName : String) (path key : Nat → String) (containers : List String) : List Call :=
  recreateCalls settings phase env ++ listCalls settings phase env configName ++
    equipAllCalls env.host configName path key 0 containers

/-- All calls of a deployment, for the containers that the host lists. -/
def canonicalCalls (settings : Settings) (phase : PhasePlan) (env : HostEnvironment)
    (configName : String) (path key : Nat → String) (containers : List String) : List Call :=
  preparingCalls settings phase env configName path key containers ++
    [composeCall settings phase env "restart"]

/-- A start of a list is, without its last element, a start of the list without its own. -/
theorem prefix_of_concat {α : Type} {as bs : List α} {a b : α}
    (h : as ++ [a] <+: bs ++ [b]) : as <+: bs := by
  rcases List.prefix_concat_iff.1 h with h | h
  · obtain ⟨rfl, -⟩ := List.append_inj' h rfl
    exact List.prefix_refl _
  · exact (List.prefix_append _ _).trans h

section

variable {settings : Settings} {phase : PhasePlan} {env : HostEnvironment}

/-! ### Telling calls apart -/

/-- The compose calls of a host differ in their subcommands only. -/
theorem composeCall_inj {subcommand subcommand' : String} :
    composeCall settings phase env subcommand = composeCall settings phase env subcommand' ↔
      subcommand = subcommand' := by
  simp [composeCall]

/-- A compose command is told apart from a plain call by its environment. -/
theorem PlainCall.ne_composeCall {host : String} {c : Call} (h : PlainCall host c)
    (subcommand : String) : c ≠ composeCall settings phase env subcommand := by
  rintro rfl
  have empty := h.environment_eq
  simp [Call.environment, composeCall, HostEnvironment.exports] at empty

/-- The calls that equip containers export nothing. -/
theorem plainCall_equipAllCalls {host configName : String} {path key : Nat → String} :
    ∀ (place : Nat) (containers : List String),
      ∀ c ∈ equipAllCalls host configName path key place containers, PlainCall host c
  | _, [] => fun _ hc => absurd hc List.not_mem_nil
  | place, container :: containers => by
    intro c hc
    rcases List.mem_append.1 hc with hc | hc
    · simp only [equipCalls, List.mem_cons, List.not_mem_nil, or_false] at hc
      rcases hc with rfl | rfl | rfl | rfl
      · exact .copy ..
      · exact .write ..
      · exact .copy ..
      · exact .remove _
    · exact plainCall_equipAllCalls (place + 1) containers c hc

/-- Recreating the containers does not list them. -/
theorem ne_listing_of_mem_recreateCalls :
    ∀ c ∈ recreateCalls settings phase env, c ≠ composeCall settings phase env "ps -q" := by
  intro c hc
  simp only [recreateCalls, List.mem_cons, List.not_mem_nil, or_false] at hc
  rcases hc with rfl | rfl | rfl | rfl
  · exact (PlainCall.put ..).ne_composeCall _
  all_goals exact fun h => absurd (composeCall_inj.1 h) (by decide)

/-- No call before the last starts the containers. -/
theorem restart_not_mem_preparingCalls {configName : String} {path key : Nat → String}
    {containers : List String} : composeCall settings phase env "restart" ∉
      preparingCalls settings phase env configName path key containers := by
  intro h
  rcases List.mem_append.1 h with h | h
  · simp only [recreateCalls, listCalls, List.cons_append, List.nil_append, List.mem_cons,
      List.not_mem_nil, or_false, composeCall_inj] at h
    rcases h with h | h | h | h | h | h
    · exact (PlainCall.put ..).ne_composeCall "restart" h.symm
    · exact absurd h (by decide)
    · exact absurd h (by decide)
    · exact absurd h (by decide)
    · exact (PlainCall.put ..).ne_composeCall "restart" h.symm
    · exact absurd h (by decide)
  · exact (plainCall_equipAllCalls 0 containers _ h).ne_composeCall "restart" rfl

end

namespace PhasePlan

/-- The containers are those of the listing, if the exchanges have one. -/
def Lists (phase : PhasePlan) (settings : Settings) (env : HostEnvironment) (xs : List Exchange)
    (containers : List String) : Prop :=
  ∀ x ∈ xs, ∀ listing, x.call = composeCall settings phase env "ps -q" → x.reply = .ok listing →
    containers = listedIds listing

/-- A deployment that has these exchanges and this result keeps to the canonical
sequence. -/
structure Canonical (phase : PhasePlan) (settings : Settings) (env : HostEnvironment)
    (configName : String) (path key : Nat → String) (xs : List Exchange)
    (r : Except Failure (List String)) : Prop where
  calls : ∃ containers, phase.Lists settings env xs containers ∧
    xs.map Exchange.call <+: canonicalCalls settings phase env configName path key containers
  /-- Nothing follows a call that fails. -/
  answered : ∀ x ∈ xs.dropLast, x.IsAnswered
  ok_iff : (∃ ids, r = .ok ids) ↔ (∀ x ∈ xs, x.IsAnswered) ∧ ∃ x ∈ xs, ∃ listing,
    x.call = composeCall settings phase env "ps -q" ∧ x.reply = .ok listing ∧
    (listedIds listing).length = phase.layout.perHost.toNat
  complete : ∀ ids, r = .ok ids → phase.Lists settings env xs ids ∧
    xs.map Exchange.call = canonicalCalls settings phase env configName path key ids
  /-- The failure is that of the last call, or of the listing if this is the last. -/
  failed : ∀ f, r = .error f → ∃ x, xs.getLast? = some x ∧
    ((∃ e, x.reply = .error e ∧ f = Failure.ofCall x.call e) ∨
      ∃ listing, x.call = composeCall settings phase env "ps -q" ∧ x.reply = .ok listing ∧
        (listedIds listing).length ≠ phase.layout.perHost.toNat ∧
        f = .of (.containerCount env.host (listedIds listing).length phase.compose.service
          phase.layout.perHost.toNat))
  /-- The containers are started last, when as many as the layout says have been prepared. -/
  restarted : ∀ x ∈ xs, x.call = composeCall settings phase env "restart" →
    ∃ before containers, xs = before ++ [x] ∧ (∀ y ∈ before, y.IsAnswered) ∧
      phase.Lists settings env xs containers ∧
      containers.length = phase.layout.perHost.toNat ∧
      before.map Exchange.call =
        preparingCalls settings phase env configName path key containers

variable {phase : PhasePlan} {settings : Settings} {position : UInt64} {env : HostEnvironment}
  {configName : String} {path key : Nat → String} {containers : List String} {t t' : Nat}
  {xs ys zs : List Exchange} {f : Failure}

/-! ### Rows of exchanges -/

/-- Before the last of the calls up to the listing, no call lists the containers. -/
theorem ne_listing_of_le {z : Exchange}
    (h : (ys ++ [z]).map Exchange.call <+:
      recreateCalls settings phase env ++ listCalls settings phase env configName) :
    ∀ y ∈ ys, y.call ≠ composeCall settings phase env "ps -q" := by
  have shipped : ys.map Exchange.call <+: recreateCalls settings phase env ++
      [⟨env.host, .put settings.configFile (inWorkingDirectory configName)⟩] := by
    refine prefix_of_concat (a := z.call) (b := composeCall settings phase env "ps -q") ?_
    rw [List.append_assoc]
    rwa [List.map_append] at h
  intro y hy
  rcases List.mem_append.1 (shipped.subset (List.mem_map_of_mem hy)) with hy | hy
  · exact ne_listing_of_mem_recreateCalls _ hy
  · rw [List.mem_singleton.1 hy]
    exact (PlainCall.put ..).ne_composeCall _

/-- Exchanges that stop before the listing is answered list no containers. -/
theorem lists_of_stopped (h : StoppedIn
    (recreateCalls settings phase env ++ listCalls settings phase env configName) xs f)
    (containers : List String) : phase.Lists settings env xs containers := by
  obtain ⟨ys, z, e, rfl, -, failed, calls, -⟩ := h
  intro x hx listing hcall hreply
  rcases List.mem_append.1 hx with hx | hx
  · exact absurd hcall (ne_listing_of_le calls x hx)
  · rw [List.mem_singleton.1 hx, failed] at hreply
    cases hreply

/-- The containers of a listing that is answered, whatever other calls follow. -/
theorem lists_of_completed {x : Exchange} {listing : String}
    (h : CompletedIn
      (recreateCalls settings phase env ++ listCalls settings phase env configName) (ys ++ [x]))
    (reply : x.reply = .ok listing)
    (others : ∀ z ∈ zs, z.call ≠ composeCall settings phase env "ps -q") :
    phase.Lists settings env (ys ++ [x] ++ zs) (listedIds listing) := by
  intro y hy listing' hcall hreply
  rcases List.mem_append.1 hy with hy | hy
  · rcases List.mem_append.1 hy with hy | hy
    · exact absurd hcall (ne_listing_of_le h.le y hy)
    · rw [List.mem_singleton.1 hy, reply] at hreply
      rw [Except.ok.inj hreply]
  · exact absurd hcall (others y hy)

/-- A call that starts the containers is the last of the canonical sequence. -/
theorem restarted_of_le
    (calls : xs.map Exchange.call <+:
      canonicalCalls settings phase env configName path key containers)
    (answered : ∀ x ∈ xs.dropLast, x.IsAnswered) {x : Exchange} (hx : x ∈ xs)
    (hcall : x.call = composeCall settings phase env "restart") :
    ∃ before, xs = before ++ [x] ∧ (∀ y ∈ before, y.IsAnswered) ∧
      before.map Exchange.call =
        preparingCalls settings phase env configName path key containers := by
  have early : ∀ y : Exchange, y.call ∈ preparingCalls settings phase env configName path key containers →
      y.call ≠ composeCall settings phase env "restart" :=
    fun y hy h => restart_not_mem_preparingCalls (h ▸ hy)
  obtain ⟨before, last, rfl⟩ : ∃ before last, xs = before ++ [last] := by
    rcases List.eq_nil_or_concat xs with rfl | ⟨before, last, h⟩
    · cases hx
    · exact ⟨before, last, h.trans List.concat_eq_append⟩
  rw [List.dropLast_concat] at answered
  rcases List.prefix_concat_iff.1 calls with whole | part
  · rw [List.map_append] at whole
    obtain ⟨front, -⟩ := List.append_inj' whole rfl
    rcases List.mem_append.1 hx with hx | hx
    · exact absurd hcall (early x (front ▸ List.mem_map_of_mem hx))
    · exact ⟨before, by rw [List.mem_singleton.1 hx], answered, front⟩
  · exact absurd hcall (early x (part.subset (List.mem_map_of_mem hx)))

/-! ### The ways to end -/

/-- The row of a host starts with the same calls whatever containers are listed. -/
theorem prefix_canonicalCalls (containers : List String) :
    recreateCalls settings phase env ++ listCalls settings phase env configName <+:
      canonicalCalls settings phase env configName path key containers := by
  rw [canonicalCalls, preparingCalls, List.append_assoc]
  exact List.prefix_append _ _

/-- A call of the canonical sequence fails. -/
theorem canonical_of_stopped
    (h : StoppedIn (canonicalCalls settings phase env configName path key containers) xs f)
    (lists : phase.Lists settings env xs containers)
    (count : (∃ x ∈ xs, x.call = composeCall settings phase env "restart") →
      containers.length = phase.layout.perHost.toNat) :
    phase.Canonical settings env configName path key xs (.error f) := by
  obtain ⟨ys, z, e, rfl, answered, failed, calls, rfl⟩ := h
  have answered' : ∀ x ∈ (ys ++ [z]).dropLast, x.IsAnswered := by
    rwa [List.dropLast_concat]
  constructor
  case calls => exact ⟨containers, lists, calls⟩
  case answered => exact answered'
  case ok_iff =>
    refine ⟨nofun, fun ⟨all, _⟩ => ?_⟩
    obtain ⟨answer, reply⟩ := all z (by simp)
    rw [failed] at reply
    cases reply
  case complete => exact fun ids h => by cases h
  case failed =>
    intro f hf
    obtain rfl := Except.error.inj hf
    exact ⟨z, List.getLast?_concat, .inl ⟨e, failed, rfl⟩⟩
  case restarted =>
    intro x hx hcall
    obtain ⟨before, hxs, all, front⟩ := restarted_of_le calls answered' hx hcall
    exact ⟨before, containers, hxs, all, lists, count ⟨x, hx, hcall⟩, front⟩

/-- A call up to the listing fails. -/
theorem canonical_of_stopped_listing
    (h : StoppedIn
      (recreateCalls settings phase env ++ listCalls settings phase env configName) xs f) :
    phase.Canonical settings env configName path key xs (.error f) := by
  refine canonical_of_stopped (h.mono (prefix_canonicalCalls [])) (lists_of_stopped h []) ?_
  rintro ⟨x, hx, hcall⟩
  have early : x.call ∈ preparingCalls settings phase env configName path key [] :=
    List.mem_append_left _ (h.le.subset (List.mem_map_of_mem hx))
  exact absurd (hcall ▸ early) restart_not_mem_preparingCalls

/-- The listing has not the right length. -/
theorem canonical_of_miscounted {x : Exchange} {listing : String}
    (h : CompletedIn
      (recreateCalls settings phase env ++ listCalls settings phase env configName) (ys ++ [x]))
    (reply : x.reply = .ok listing)
    (count : (listedIds listing).length ≠ phase.layout.perHost.toNat) :
    phase.Canonical settings env configName path key (ys ++ [x])
      (.error (.of (.containerCount env.host (listedIds listing).length phase.compose.service
        phase.layout.perHost.toNat))) := by
  have lists : phase.Lists settings env (ys ++ [x]) (listedIds listing) := by
    rw [← List.append_nil (ys ++ [x])]
    exact lists_of_completed h reply fun z hz => absurd hz List.not_mem_nil
  constructor
  case calls =>
    refine ⟨listedIds listing, lists, ?_⟩
    rw [h.1]
    exact prefix_canonicalCalls _
  case answered => exact fun y hy => h.2 y (List.dropLast_subset _ hy)
  case ok_iff =>
    refine ⟨nofun, ?_⟩
    rintro ⟨-, y, hy, listing', hcall, hreply, count'⟩
    rw [← lists y hy listing' hcall hreply] at count'
    exact absurd count' count
  case complete => exact fun ids h => by cases h
  case failed =>
    intro f hf
    obtain rfl := Except.error.inj hf
    exact ⟨x, List.getLast?_concat, .inr ⟨listing, call_of_listed h, reply, count, rfl⟩⟩
  case restarted =>
    intro y hy hcall
    have early : y.call ∈ preparingCalls settings phase env configName path key [] :=
      List.mem_append_left _ (h.1 ▸ List.mem_map_of_mem hy)
    exact absurd (hcall ▸ early) restart_not_mem_preparingCalls

/-- All calls of the canonical sequence are answered. -/
theorem canonical_of_completed
    (h : CompletedIn (canonicalCalls settings phase env configName path key containers) xs)
    (lists : phase.Lists settings env xs containers)
    (listed : ∃ x ∈ xs, ∃ listing, x.call = composeCall settings phase env "ps -q" ∧
      x.reply = .ok listing ∧ (listedIds listing).length = phase.layout.perHost.toNat) :
    phase.Canonical settings env configName path key xs (.ok containers) := by
  have answered : ∀ x ∈ xs.dropLast, x.IsAnswered :=
    fun x hx => h.2 x (List.dropLast_subset _ hx)
  constructor
  case calls => exact ⟨containers, lists, h.le⟩
  case answered => exact answered
  case ok_iff => exact ⟨fun _ => ⟨h.2, listed⟩, fun _ => ⟨containers, rfl⟩⟩
  case complete =>
    intro ids hids
    obtain rfl := Except.ok.inj hids
    exact ⟨lists, h.1⟩
  case failed => exact fun f hf => by cases hf
  case restarted =>
    intro x hx hcall
    obtain ⟨y, hy, listing, ycall, yreply, count⟩ := listed
    obtain ⟨before, hxs, all, front⟩ := restarted_of_le h.le answered hx hcall
    refine ⟨before, containers, hxs, all, lists, ?_, front⟩
    rw [lists y hy listing ycall yreply, count]

/-! ### Every deployment -/

/-- **Every run of a deployment keeps to the canonical sequence**, where the
config has a name and the containers have keypairs. -/
theorem canonical_of_runs (keys : phase.HasKeys position env.host path key)
    (name : settings.configName = .ok configName) {o : Option (Except Failure (List String))}
    (h : (phase.deploy settings position env).Runs t xs o t') :
    ∃ r, o = some r ∧ phase.Canonical settings env configName path key xs r := by
  cases phase.course h with
  | notRecreated stopped =>
    exact ⟨_, rfl, canonical_of_stopped_listing (stopped.mono (List.prefix_append _ _))⟩
  | unnamed name' => cases name.symm.trans name'
  | notListed name' stopped =>
    obtain rfl := Except.ok.inj (name.symm.trans name')
    exact ⟨_, rfl, canonical_of_stopped_listing stopped⟩
  | @wrongCount us x listing _ f name' completed reply count =>
    obtain rfl := Except.ok.inj (name.symm.trans name')
    obtain ⟨miscounted, rfl⟩ := phase.checkCount_eq_error.1 count
    exact ⟨_, rfl, canonical_of_miscounted completed reply miscounted⟩
  | @listed us zs x listing _ _ between _ name' completed reply count rest =>
    obtain rfl := Except.ok.inj (name.symm.trans name')
    have hcall := call_of_listed completed
    have whole : canonicalCalls settings phase env configName path key (listedIds listing) =
        recreateCalls settings phase env ++ listCalls settings phase env configName ++
          (equipAllCalls env.host configName path key 0 (listedIds listing) ++
            [composeCall settings phase env "restart"]) := List.append_assoc ..
    -- No call after the listing lists containers again.
    have others : ∀ c ∈ equipAllCalls env.host configName path key 0 (listedIds listing) ++
        [composeCall settings phase env "restart"],
        c ≠ composeCall settings phase env "ps -q" := by
      intro c hc
      rcases List.mem_append.1 hc with hc | hc
      · exact (plainCall_equipAllCalls 0 _ c hc).ne_composeCall _
      · rw [List.mem_singleton.1 hc]
        exact fun h => absurd (composeCall_inj.1 h) (by decide)
    rw [finish_eq keys count] at rest
    rcases Program.Runs.of_performAll_bind rest with
      ⟨vs, ws, _, rfl, finished, rest⟩ | ⟨f, rfl, stopped⟩
    · obtain ⟨rfl, rfl, -⟩ := Program.Runs.of_pure rest
      rw [List.append_nil]
      refine ⟨_, rfl, canonical_of_completed (whole ▸ completed.append finished) ?_
        ⟨x, by simp, listing, hcall, reply, count⟩⟩
      exact lists_of_completed completed reply
        fun z hz => others z.call (finished.1 ▸ List.mem_map_of_mem hz)
    · refine ⟨_, rfl, canonical_of_stopped (whole ▸ .append completed stopped) ?_
        fun _ => count⟩
      exact lists_of_completed completed reply
        fun z hz => others z.call (stopped.le.subset (List.mem_map_of_mem hz))

variable {hosts : List String} {compose : ComposeFile} {keystore : Keystore} {perHost : UInt64}

/-- The containers of a host of a phase that was made have the keypairs of the
keystore from `i * k` on. -/
theorem hasKeys_of_make (made : make hosts compose keystore perHost = .ok phase)
    (fits : hosts.length * perHost.toNat < UInt64.size) {i : Nat} (hi : i < hosts.length)
    (host : String) :
    phase.HasKeys (UInt64.ofNat i) host
      (fun j => keyPath compose.fileName (i * perHost.toNat + j))
      fun j => (keystore.get? (i * perHost.toNat + j)).getD "" := by
  obtain ⟨-, rfl, -, -, rfl, -⟩ := of_make made
  intro j container hj
  obtain ⟨key, hget, hkey⟩ := keypairOf_eq made fits hi hj host container
  refine ⟨_, ?_, stagingPath_ofNat (Nat.lt_trans (KeyLayout.position_lt hi hj) fits)⟩
  simp only [hkey, hget, Option.getD_some]

/-- **A deployment keeps to the canonical sequence.** On every host of a phase
that was made, and whatever the remote answers, its calls are the first of the
canonical sequence, up to the one that fails; it succeeds exactly when all are
answered and the listing has the right length. -/
theorem deploy_canonical (made : make hosts compose keystore perHost = .ok phase)
    (fits : hosts.length * perHost.toNat < UInt64.size) {i : Nat} (hi : i < hosts.length)
    (name : settings.configName = .ok configName) (env : HostEnvironment) {σ : Type}
    (remote : Remote σ) (place : Nat) (s : σ) (t : Nat) :
    ∃ xs r,
      ((phase.deploy settings (UInt64.ofNat i) env).run remote place s t).events =
        xs.flatMap (Exchange.events place) ∧
      ((phase.deploy settings (UInt64.ofNat i) env).run remote place s t).result = some r ∧
      phase.Canonical settings env configName
        (fun j => keyPath compose.fileName (i * perHost.toNat + j))
        (fun j => (keystore.get? (i * perHost.toNat + j)).getD "") xs r := by
  obtain ⟨xs, events, runs⟩ :=
    (phase.deploy settings (UInt64.ofNat i) env).runs_run remote place s t
  obtain ⟨r, result, canonical⟩ :=
    canonical_of_runs (hasKeys_of_make made fits hi env.host) name runs
  exact ⟨xs, r, events, result, canonical⟩

/-- The second of two hosts with two containers each goes through its whole row. -/
theorem deploy_canonical_grid :
    ∃ phase, make ["b", "c"] ⟨"node.yml", "node.yml", "node"⟩ ⟨["k", "l", "m", "n"]⟩ 2 = .ok phase ∧
      ["b", "c"].length * (2 : UInt64).toNat < UInt64.size ∧ 1 < ["b", "c"].length ∧
      Settings.standard.configName = .ok "Config.toml" ∧
      ∃ xs, ((phase.deploy .standard (UInt64.ofNat 1) ⟨"c", "v1", none⟩).run
          (Script.remote [Script.readyHost "c" ["x", "y"]]) 0 [] 0).events =
            xs.flatMap (Exchange.events 0) ∧
        phase.Canonical .standard ⟨"c", "v1", none⟩ "Config.toml"
          (fun j => keyPath "node.yml" (1 * (2 : UInt64).toNat + j))
          (fun j => (Keystore.get? ⟨["k", "l", "m", "n"]⟩ (1 * (2 : UInt64).toNat + j)).getD "") xs
          (.ok ["x", "y"]) := by
  have made : make ["b", "c"] ⟨"node.yml", "node.yml", "node"⟩ ⟨["k", "l", "m", "n"]⟩ 2 =
      .ok ⟨["b", "c"], ⟨"node.yml", "node.yml", "node"⟩, ⟨["k", "l", "m", "n"]⟩,
        ⟨2, 2, by decide⟩, 4, rfl⟩ := rfl
  have fits : ["b", "c"].length * (2 : UInt64).toNat < UInt64.size := by decide
  have name : Settings.standard.configName = .ok "Config.toml" := rfl
  refine ⟨_, made, fits, by decide, name, ?_⟩
  obtain ⟨xs, r, events, result, canonical⟩ := deploy_canonical made fits (i := 1) (by decide) name
    ⟨"c", "v1", none⟩ (Script.remote [Script.readyHost "c" ["x", "y"]]) 0 [] 0
  have succeeds : ((PhasePlan.deploy ⟨["b", "c"], ⟨"node.yml", "node.yml", "node"⟩,
      ⟨["k", "l", "m", "n"]⟩, ⟨2, 2, by decide⟩, 4, rfl⟩ .standard (UInt64.ofNat 1) ⟨"c", "v1", none⟩).run
      (Script.remote [Script.readyHost "c" ["x", "y"]]) 0 [] 0).result.bind Except.toOption =
        some ["x", "y"] := by
    decide +kernel
  rw [result] at succeeds
  obtain rfl : r = .ok ["x", "y"] := by
    cases r with
    | error f => cases succeeds
    | ok ids => exact congrArg Except.ok (Option.some.inj succeeds)
  exact ⟨xs, events, canonical⟩

end PhasePlan
end Rollout
