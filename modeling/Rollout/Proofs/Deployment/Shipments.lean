/-
# The files that a deployment leaves on its host

Every file is shipped to a bare name in the working directory of the host:

| file | shipped to |
| --- | --- |
| the compose file | `./<compose file>` |
| the node config | `./<node config>` |
| the keypair of the container at place `j` | `./<compose file>_<index>.key` |

The first and the last kind never meet, and neither do two keypairs of a host,
whatever its position. The node config has a name of its own, which
nothing compares with the others. So the shipments of a deployment are in each
other's way exactly when that name is taken (`PhasePlan.ConfigApart`).

Main statement: `PhasePlan.deploy_shipments`.
-/

import Mathlib.Data.List.Nodup
import Rollout.Proofs.Deployment.FromCalls

namespace Rollout

/-! ### What calls ship -/

/-- A file that a call leaves on its host. -/
structure Shipment where
  /-- The local file that it is a copy of; none for a text that is written. -/
  source : Option String
  target : String
  deriving DecidableEq, Repr

/-- What a call ships. -/
def Call.shipment? (c : Call) : Option Shipment :=
  match c.action with
  | .put file remote => some ⟨some file, remote⟩
  | .write _ remote => some ⟨none, remote⟩
  | .run _ _ => none

/-- What calls ship, in order. -/
def shipments (cs : List Call) : List Shipment :=
  cs.filterMap Call.shipment?

theorem shipments_append (cs ds : List Call) :
    shipments (cs ++ ds) = shipments cs ++ shipments ds :=
  List.filterMap_append

/-- What a run ships. -/
def Run.shipments {σ β : Type} (run : Run σ β) : List Shipment :=
  Rollout.shipments (run.events.filterMap Event.issuedCall?)

namespace Program

variable {ε α β : Type} {row rest : List Shipment}

/-- Every run of the program ships the first of a row, and all of it if it
succeeds. -/
def Stages (row : List Shipment) (p : Program ε α) : Prop :=
  ∀ ⦃t t' : Nat⦄ ⦃xs : List Exchange⦄ ⦃o : Option (Except ε α)⦄, p.Runs t xs o t' →
    shipments (xs.map Exchange.call) <+: row ∧
      ∀ a, o = some (.ok a) → shipments (xs.map Exchange.call) = row

/-- What only gives a result ships nothing. -/
theorem stages_pure (a : α) : (pure a : Program ε α).Stages [] := by
  intro t t' xs o h
  obtain ⟨rfl, -, -⟩ := Runs.of_pure h
  exact ⟨List.prefix_refl _, fun _ _ => rfl⟩

/-- What fails at once has shipped the start of every row. -/
theorem stages_fail (e : ε) : (fail e : Program ε α).Stages row := by
  intro t t' xs o h
  obtain ⟨rfl, rfl, -⟩ := Runs.of_fail h
  exact ⟨List.nil_prefix, nofun⟩

/-- A call ships what it says, if it is answered or not. -/
theorem stages_perform {failure : Call → CallError → ε} (c : Call) :
    (perform failure c).Stages c.shipment?.toList := by
  intro t t' xs o h
  obtain ⟨reply, rfl, -, -⟩ := Runs.of_perform h
  have only : shipments ([⟨t, c, t', reply⟩].map Exchange.call) = c.shipment?.toList := by
    simp only [shipments, List.map_cons, List.map_nil, List.filterMap_cons, List.filterMap_nil]
    cases c.shipment? <;> rfl
  rw [only]
  exact ⟨List.prefix_refl _, fun _ _ => rfl⟩

namespace Stages

/-- A sequence ships what its parts ship. -/
theorem bind {p : Program ε α} {k : α → Program ε β} (hp : p.Stages row)
    (hk : ∀ a, (k a).Stages rest) : (p >>= k).Stages (row ++ rest) := by
  intro t t' xs o h
  rcases Runs.of_bind h with ⟨a, ys, zs, _, rfl, first, second⟩ | ⟨e, rfl, first⟩ | ⟨rfl, first⟩
  · obtain ⟨front, all⟩ := hk a second
    rw [List.map_append, shipments_append, (hp first).2 a rfl]
    exact ⟨(List.prefix_append_right_inj row).2 front, fun b hb => by rw [all b hb]⟩
  · exact ⟨(hp first).1.trans (List.prefix_append _ _), nofun⟩
  · exact ⟨(hp first).1.trans (List.prefix_append _ _), nofun⟩

/-- What follows a computation may use that it is the one that succeeded. -/
theorem ended_bind {r : Except ε α} {k : α → Program ε β}
    (hk : ∀ a, r = .ok a → (k a).Stages row) : (ended r >>= k).Stages row := by
  cases r with
  | ok a => exact hk a rfl
  | error e => exact stages_fail e

end Stages
end Program

/-! ### Paths on the host -/

theorem inWorkingDirectory_inj {name other : String} :
    inWorkingDirectory name = inWorkingDirectory other ↔ name = other := by
  rw [inWorkingDirectory, inWorkingDirectory, String.append_right_inj]

/-- Different indices are written differently. -/
theorem toString_index_injective {index other : UInt64} (h : toString index = toString other) :
    index = other := by
  have value : ∀ i : UInt64, Nat.ofDigitChars 10 (toString i).toList 0 = i.toNat := by
    intro i
    have digits : (toString i).toList = Nat.toDigits 10 i.toNat := Nat.toList_repr
    rw [digits, Nat.ofDigitChars_toDigits (by decide) (by decide)]
  rw [← UInt64.toNat_inj, ← value, h, value]

/-- Different keypairs of a phase are staged at different paths. -/
theorem stagingPath_inj {fileName : String} {index other : UInt64} :
    stagingPath fileName index = stagingPath fileName other ↔ index = other := by
  rw [stagingPath, stagingPath, inWorkingDirectory_inj, String.append_left_inj,
    String.append_right_inj]
  exact ⟨toString_index_injective, fun h => by rw [h]⟩

/-- A keypair is never staged over its compose file. -/
theorem stagingPath_ne (fileName : String) (index : UInt64) :
    inWorkingDirectory fileName ≠ stagingPath fileName index := by
  intro h
  have names := congrArg String.length (inWorkingDirectory_inj.1 h)
  simp only [String.length_append] at names
  have suffix : ".key".length = 4 := rfl
  omega

namespace PhasePlan

variable {phase : PhasePlan} {settings : Settings} {position : UInt64} {env : HostEnvironment}

/-- Where the keypair of the container at a place is staged. -/
def stagedAt (phase : PhasePlan) (position : UInt64) (place : Nat) : String :=
  stagingPath phase.compose.fileName (position * phase.layout.perHost + UInt64.ofNat place)

/-- What the deployment of a host ships. -/
def shipments (phase : PhasePlan) (settings : Settings) (position : UInt64) : List Shipment :=
  ⟨some phase.compose.path, inWorkingDirectory phase.compose.fileName⟩ ::
    match settings.configName with
    | .error _ => []
    | .ok name =>
      ⟨some settings.configFile, inWorkingDirectory name⟩ ::
        (List.range phase.layout.perHost.toNat).map fun place =>
          ⟨none, phase.stagedAt position place⟩

/-- The name of the node config is neither that of the compose file nor that of a
staged keypair. -/
def ConfigApart (phase : PhasePlan) (settings : Settings) (position : UInt64) : Prop :=
  ∀ name, settings.configName = .ok name →
    name ≠ phase.compose.fileName ∧
      ∀ place < phase.layout.perHost.toNat,
        inWorkingDirectory name ≠ phase.stagedAt position place

/-- **No two containers of a host have one staging path**, whatever the position of
the host. -/
theorem stagedAt_injective {place other : Nat} (hp : place < phase.layout.perHost.toNat)
    (ho : other < phase.layout.perHost.toNat)
    (h : phase.stagedAt position place = phase.stagedAt position other) : place = other := by
  have words := UInt64.add_right_inj _ |>.1 (stagingPath_inj.1 h)
  have size : phase.layout.perHost.toNat < UInt64.size := phase.layout.perHost.toNat_lt
  rw [← UInt64.toNat_inj, UInt64.toNat_ofNat_of_lt' (by omega),
    UInt64.toNat_ofNat_of_lt' (by omega)] at words
  exact words

/-- No two keypairs of a host are staged at one path. -/
theorem nodup_keypairs (phase : PhasePlan) (position : UInt64) :
    ((List.range phase.layout.perHost.toNat).map (phase.stagedAt position)).Nodup := by
  refine List.Nodup.map_on (fun place hp other ho h => ?_) List.nodup_range
  exact stagedAt_injective (List.mem_range.1 hp) (List.mem_range.1 ho) h

/-- The compose file is in the row of every host. -/
theorem mem_shipments_compose (phase : PhasePlan) (settings : Settings) (position : UInt64) :
    ⟨some phase.compose.path, inWorkingDirectory phase.compose.fileName⟩ ∈
      phase.shipments settings position :=
  List.mem_cons_self

/-- The node config is in the row of every host. -/
theorem mem_shipments_config {name : String} (named : settings.configName = .ok name) :
    ⟨some settings.configFile, inWorkingDirectory name⟩ ∈ phase.shipments settings position := by
  rw [shipments, named]
  exact List.mem_cons_of_mem _ List.mem_cons_self

/-- **The shipments are in each other's way** exactly when the name of the node config
is taken. -/
theorem nodup_shipments_iff :
    ((phase.shipments settings position).map Shipment.target).Nodup ↔
      phase.ConfigApart settings position := by
  rw [shipments]
  cases hc : settings.configName with
  | error f => simp [ConfigApart, hc]
  | ok name =>
    have keys : ((List.range phase.layout.perHost.toNat).map fun place =>
        Shipment.mk none (phase.stagedAt position place)).map Shipment.target =
          (List.range phase.layout.perHost.toNat).map (phase.stagedAt position) :=
      List.map_map
    have compose : inWorkingDirectory phase.compose.fileName ∉
        (List.range phase.layout.perHost.toNat).map (phase.stagedAt position) := by
      intro h
      obtain ⟨place, -, hplace⟩ := List.mem_map.1 h
      exact stagingPath_ne _ _ hplace.symm
    simp only [List.map_cons, keys, List.nodup_cons, List.mem_cons, not_or, compose,
      not_false_eq_true, and_true, phase.nodup_keypairs position, inWorkingDirectory_inj,
      List.mem_map, List.mem_range, not_exists, not_and]
    constructor
    · rintro ⟨other, places⟩ name' h
      obtain rfl : name = name' := by simpa [hc] using h
      exact ⟨Ne.symm other, fun place hplace => Ne.symm (places place hplace)⟩
    · intro apart
      obtain ⟨other, places⟩ := apart name hc
      exact ⟨other.symm, fun place hplace => (places place hplace).symm⟩

/-! ### The deployment of one host -/

open Program

/-- A command ships nothing. -/
theorem stages_run {host command : String} {environment : List (String × String)} :
    (perform ⟨host, .run command environment⟩).Stages [] :=
  stages_perform _

/-- A compose call ships nothing. -/
theorem stages_composeCall (subcommand : String) :
    (perform (composeCall settings phase env subcommand)).Stages [] :=
  stages_run

/-- A container gets its keypair from its own path. -/
theorem stages_equip {host configName container : String} {place : Nat} :
    (phase.equip position host configName place container).Stages
      [⟨none, phase.stagedAt position place⟩] := by
  refine stages_run.bind fun _ => Stages.ended_bind fun ⟨index, key⟩ slot => ?_
  -- Whether there is a keypair there is another matter.
  obtain rfl : index = position * phase.layout.perHost + UInt64.ofNat place := by
    unfold keypairOf at slot
    split at slot
    · cases slot
    · rename_i index' found
      obtain rfl : index' = index := by grind
      obtain ⟨-, -, exactly⟩ := KeyLayout.index_eq_ok.1 (index_eq_ok.1 found)
      rw [← UInt64.toNat_inj, UInt64.toNat_add, UInt64.toNat_mul, Nat.mod_add_mod, ← exactly,
        Nat.mod_eq_of_lt index'.toNat_lt]
  exact (stages_perform _).bind fun _ => stages_run.bind fun _ => stages_run.bind fun _ =>
    stages_pure ()

/-- Containers get their keypairs from their own paths, in listing order. -/
theorem stages_equipAll {host configName : String} : ∀ (place : Nat) (containers : List String),
    (phase.equipAll position host configName place containers).Stages
      ((List.range' place containers.length).map fun place =>
        ⟨none, phase.stagedAt position place⟩)
  | _, [] => stages_pure ()
  | place, _ :: containers => by
    rw [List.length_cons, List.range'_succ]
    exact stages_equip.bind fun _ => stages_equipAll (place + 1) containers

/-- **The deployment of a host ships** its row of files. -/
theorem stages_deploy :
    (phase.deploy settings position env).Stages (phase.shipments settings position) := by
  rw [deploy, shipments]
  refine (stages_perform _).bind fun _ => (stages_composeCall _).bind fun _ =>
    (stages_composeCall _).bind fun _ => (stages_composeCall _).bind fun _ => ?_
  refine Stages.ended_bind fun configName named => ?_
  rw [named]
  refine (stages_perform _).bind fun _ => (stages_composeCall _).bind fun listing => ?_
  refine Stages.ended_bind fun containers counted => ?_
  obtain ⟨rfl, count⟩ := phase.checkCount_eq_ok.1 counted
  rw [List.range_eq_range', ← count, ← List.append_nil (List.map _ _)]
  exact (stages_equipAll 0 _).bind fun _ => (stages_composeCall _).bind fun _ => stages_pure _

/-- **Files are in each other's way exactly when the name of the node config is
taken.** Every deployment of a host ships the first files of its row, and all of
them if it succeeds. While the node config has a name of its own, no two of them
have one path: what is at the path that compose commands name is a copy of the
compose file, and what every container is given as its config is a copy of the
node config. A deployment that succeeds with another name ships two files to one
path. -/
theorem deploy_shipments (phase : PhasePlan) (settings : Settings) (position : UInt64)
    (env : HostEnvironment) {σ : Type} (remote : Remote σ) (place : Nat) (s : σ) (t : Nat) :
    ((phase.deploy settings position env).run remote place s t).shipments <+:
        phase.shipments settings position ∧
    (∀ ids, ((phase.deploy settings position env).run remote place s t).result = some (.ok ids) →
      ((phase.deploy settings position env).run remote place s t).shipments =
        phase.shipments settings position ∧
      ((((phase.deploy settings position env).run remote place s t).shipments.map
        Shipment.target).Nodup ↔ phase.ConfigApart settings position)) ∧
    (phase.ConfigApart settings position →
      (((phase.deploy settings position env).run remote place s t).shipments.map
        Shipment.target).Nodup ∧
      ∀ y ∈ ((phase.deploy settings position env).run remote place s t).shipments,
        (y.target = inWorkingDirectory phase.compose.fileName →
          y.source = some phase.compose.path) ∧
        ∀ name, settings.configName = .ok name → y.target = inWorkingDirectory name →
          y.source = some settings.configFile) := by
  obtain ⟨xs, events, runs⟩ := (phase.deploy settings position env).runs_run remote place s t
  obtain ⟨front, all⟩ := stages_deploy runs
  rw [← issuedCalls_exchanges place, ← events] at front all
  change Run.shipments _ <+: _ at front
  refine ⟨front, fun ids ok => ?_, fun apart => ?_⟩
  · have whole := all ids ok
    refine ⟨whole, ?_⟩
    rw [← nodup_shipments_iff, ← whole]
    rfl
  · have distinct := nodup_shipments_iff.2 apart
    refine ⟨distinct.sublist (front.sublist.map _), fun y hy => ?_⟩
    have only := List.inj_on_of_nodup_map distinct (front.subset hy)
    constructor
    · intro htarget
      exact congrArg Shipment.source (only (mem_shipments_compose ..) htarget)
    · intro name named htarget
      exact congrArg Shipment.source (only (mem_shipments_config named) htarget)

end PhasePlan

namespace Configuration

/-- The small configuration with a node config that has the name of a compose
file. -/
def sharing : Configuration :=
  { small with settings := { small.settings with configFile := "conf/boot.yml" } }

/-- The files of the small plan, and that node config. -/
def sharingFiles : FileTree :=
  { smallFiles with
    entries := smallFiles.entries ++
      [(["work", "conf"], .directory), (["work", "conf", "boot.yml"], .file "".toUTF8)] }

/-- That plan is made, and its bootstrap host does all it is told: the node config
is shipped over the compose file. -/
theorem deploy_shipments_sharing :
    sharing.plan sharingFiles.files none none =
        .ok { DeploymentPlan.small with settings := sharing.settings } ∧
      ((DeploymentPlan.small.bootstrap.deploy sharing.settings 0 ⟨"a", "v1", none⟩).run
        (Script.remote [Script.readyHost "a" ["x"]]) 0 [] 0).result = some (.ok ["x"]) ∧
      ((DeploymentPlan.small.bootstrap.deploy sharing.settings 0 ⟨"a", "v1", none⟩).run
        (Script.remote [Script.readyHost "a" ["x"]]) 0 [] 0).shipments =
          [⟨some "boot.yml", "./boot.yml"⟩, ⟨some "conf/boot.yml", "./boot.yml"⟩,
            ⟨none, "./boot.yml_0.key"⟩] ∧
      ¬ (((DeploymentPlan.small.bootstrap.deploy sharing.settings 0 ⟨"a", "v1", none⟩).run
        (Script.remote [Script.readyHost "a" ["x"]]) 0 [] 0).shipments.map
          Shipment.target).Nodup := by
  decide +kernel

end Configuration
end Rollout
