/-
# What the commands of a deployment are read as

The commands of a deployment name files and containers as they are, and only the
path that a keypair is written to is quoted:

| command | read as it is meant if these are words |
| --- | --- |
| `umask 077 && cat > '<path>'` | none |
| `docker cp ./<config> <id>:/Config.toml` | `./<config>`, `<id>:/Config.toml` |
| `docker cp <path> <id>:/node.key` | the path, `<id>:/node.key` |
| `rm -f <path>` | the path |
| `<compose command> -f <file> <subcommand>` | the file |

Main statement: `PhasePlan.deploy_reads_iff`. A command is read as it is meant
exactly in these cases. The path of a keypair is a word exactly when nothing in the
name of the compose file means anything to a shell. So a file of another name is
written under that name and neither copied nor removed under it.
-/

import Rollout.Proofs.Deployment.Staging
import Rollout.Proofs.Shell.Quoting

namespace Rollout

open Shell

/-! ### What a host's shell reads -/

/-- The call runs a command on its host that is read as the tokens. -/
def Ssh.Reads (ssh : Ssh) (c : Call) (ts : List Token) : Prop :=
  (ssh.invocation c).program = "ssh" ∧
    ∃ command, (ssh.invocation c).arguments.getLast? = some command ∧ tokens? command = some ts

section

variable (ssh : Ssh) {host : String} {ts : List Token}

/-- A call that runs a command is read as the words of the command behind its exports. -/
theorem Ssh.reads_run {command : String} {environment : List (String × String)} :
    ssh.Reads ⟨host, .run command environment⟩ ts ↔
      tokens? (withEnvironment command environment) = some ts := by
  simp [Reads, invocation]

/-- A call that writes a file is read as the words of the command that writes it. -/
theorem Ssh.reads_write {contents remote : String} :
    ssh.Reads ⟨host, .write contents remote⟩ ts ↔ tokens? (writeCommand remote) = some ts := by
  simp [Reads, invocation]

end

/-- The tokens before the path of a file that is written. -/
def writeTokens : List Token :=
  [.ofText "umask", .ofText "077", .operator '&', .operator '&', .ofText "cat", .operator '>']

/-- **A written file has the name it is given**, whatever that is. -/
theorem tokens?_writeCommand (remote : String) :
    tokens? (Ssh.writeCommand remote) = some (writeTokens ++ [.ofText remote]) := by
  have front : Complete "umask 077 && cat >" writeTokens := by decide +kernel
  exact front.tokens?_quote remote

/-! ### Names that are words -/

section

variable {name : String}

theorem isOrdinary_digit {c : Char} (h : c.isDigit) : isOrdinary c :=
  isOrdinary_of_isNameChar (by simp [isNameChar, Char.isAlphanum, h])

/-- A text is plain when its parts are. -/
theorem isPlain_append {cs ds : List Char} : IsPlain (cs ++ ds) ↔ IsPlain cs ∧ IsPlain ds :=
  List.forall_mem_append

/-- The path of a file in the working directory is one word when the name of the file is plain. -/
theorem isWord_inWorkingDirectory :
    IsWord (inWorkingDirectory name).toList ↔ IsPlain name.toList := by
  have here : "./".toList = ['.', '/'] := rfl
  rw [inWorkingDirectory, String.toList_append, here]
  refine ⟨fun h => (isPlain_append.1 h.plain).2, fun h => ?_⟩
  exact ⟨isPlain_append.2 ⟨by decide, h⟩, '.', rfl, by decide, by decide⟩

/-- An index is written in plain characters. -/
theorem isPlain_index (index : UInt64) : IsPlain (toString index).toList := by
  intro c hc
  have digits : (toString index).toList = Nat.toDigits 10 index.toNat := Nat.toList_repr
  rw [digits] at hc
  exact isOrdinary_digit (Nat.isDigit_of_mem_toDigits (by decide) (by decide) hc)

/-- **The path of a keypair** is a word exactly when the name of the compose file is plain. -/
theorem isWord_stagingPath (index : UInt64) :
    IsWord (stagingPath name index).toList ↔ IsPlain name.toList := by
  rw [stagingPath, isWord_inWorkingDirectory]
  simp only [String.toList_append, isPlain_append]
  refine ⟨fun h => h.1.1.1, fun h => ⟨⟨⟨h, by decide⟩, isPlain_index index⟩, by decide⟩⟩

end

/-! ### What a deployment sends -/

/-- The subcommands of a deployment, word by word. -/
def composeWords : List (List String) :=
  [["pull"], ["rm", "-fs"], ["up", "--no-start"], ["ps", "-q"], ["restart"]]

/-- The subcommands are the words of them, joined by spaces. -/
theorem intercalate_composeWords :
    composeWords.map (" ".intercalate ·) = composeSubcommands := by decide

/-- A call puts the compose file or the node config under its name. -/
inductive Ships (settings : Settings) (phase : PhasePlan) (env : HostEnvironment)
    (configName : String) : Call → Prop where
  | compose : Ships settings phase env configName
      ⟨env.host, .put phase.compose.path (inWorkingDirectory phase.compose.fileName)⟩
  | config : Ships settings phase env configName
      ⟨env.host, .put settings.configFile (inWorkingDirectory configName)⟩

/-- What the command of a call is meant to be read as: tokens, then texts that stand
in it as they are, each of them a word, then tokens. -/
inductive Passes (settings : Settings) (phase : PhasePlan) (env : HostEnvironment)
    (configName : String) (tool : List Token) : Call → List Token → List String → List Token → Prop
    where
  | compose {subcommand : List String} (h : subcommand ∈ composeWords) :
    Passes settings phase env configName tool
      (composeCall settings phase env (" ".intercalate subcommand))
      (exportTokens env.exports ++ [.operator ';'] ++ (tool ++ [.ofText "-f"]))
      [phase.compose.fileName] (subcommand.map .ofText)
  | configure (container : String) :
    Passes settings phase env configName tool
      ⟨env.host,
        .run (copyCommand (inWorkingDirectory configName) container containerConfigPath) []⟩
      [.ofText "docker", .ofText "cp"]
      [inWorkingDirectory configName, container ++ ":" ++ containerConfigPath] []
  | stage (index : UInt64) (key : String) :
    Passes settings phase env configName tool
      (stageCall env.host (stagingPath phase.compose.fileName index) key)
      (writeTokens ++ [.ofText (stagingPath phase.compose.fileName index)]) [] []
  | install (index : UInt64) (container : String) :
    Passes settings phase env configName tool
      (installCall env.host (stagingPath phase.compose.fileName index) container)
      [.ofText "docker", .ofText "cp"]
      [stagingPath phase.compose.fileName index, container ++ ":" ++ containerKeyPath] []
  | remove (index : UInt64) :
    Passes settings phase env configName tool
      (removeCall env.host (stagingPath phase.compose.fileName index))
      [.ofText "rm", .ofText "-f"] [stagingPath phase.compose.fileName index] []

section

variable {ssh : Ssh} {settings : Settings} {phase : PhasePlan} {env : HostEnvironment}
  {configName : String} {tool front back : List Token} {texts : List String} {c : Call}

/-- A command is the tokens of its front, and words. -/
theorem Ssh.reads_row_iff {host command : String} {environment : List (String × String)}
    {own : List String} (texts : List String)
    (complete : Complete (withEnvironment command environment) front)
    (plain : ∀ w ∈ own, IsWord w.toList) :
    ssh.Reads ⟨host, .run (command ++ " " ++ " ".intercalate (texts ++ own)) environment⟩
      (front ++ texts.map .ofText ++ own.map .ofText) ↔ ∀ text ∈ texts, IsWord text.toList := by
  rw [reads_run, String.append_assoc, withEnvironment_append, ← String.append_assoc,
    List.append_assoc, ← List.map_append, complete.tokens?_row_iff, List.forall_mem_append]
  exact and_iff_left plain

/-- The command that copies, as a tool and its words. -/
theorem copyCommand_eq (source container target : String) :
    copyCommand source container target =
      "docker cp" ++ " " ++ " ".intercalate ([source, container ++ ":" ++ target] ++ []) := by
  rw [copyCommand, ← String.toList_inj]
  simp [String.toList_append]

/-- The command that removes, as a tool and its words. -/
theorem removeCommand_eq (path : String) :
    "rm -f " ++ path = "rm -f" ++ " " ++ " ".intercalate ([path] ++ []) := by
  rw [← String.toList_inj]
  simp [String.toList_append]

/-- A compose command, as a tool, an option and its words. -/
theorem composeCommand_eq (command file : String) {subcommand : List String} (h : subcommand ≠ []) :
    command ++ " -f " ++ file ++ " " ++ " ".intercalate subcommand =
      command ++ " " ++ "-f" ++ " " ++ " ".intercalate ([file] ++ subcommand) := by
  obtain ⟨first, rest, rfl⟩ := List.exists_cons_of_ne_nil h
  rw [← String.toList_inj]
  simp [String.toList_append, String.toList_intercalate]

/-- **A command is read as it is meant** exactly when the texts that stand in it as
they are are words. -/
theorem Passes.reads_iff (complete : Complete settings.composeCommand tool)
    (h : Passes settings phase env configName tool c front texts back) :
    ssh.Reads c (front ++ texts.map .ofText ++ back) ↔ ∀ text ∈ texts, IsWord text.toList := by
  have copy : Complete (withEnvironment "docker cp" []) [.ofText "docker", .ofText "cp"] := by
    decide +kernel
  have remove : Complete (withEnvironment "rm -f" []) [.ofText "rm", .ofText "-f"] := by
    decide +kernel
  cases h with
  | @compose subcommand h =>
    have words : ∀ s ∈ composeWords, ∀ w ∈ s, IsWord w.toList := by decide
    have nonempty : subcommand ≠ [] := by
      rintro rfl
      simp [composeWords] at h
    have flag : Complete (settings.composeCommand ++ " " ++ "-f") (tool ++ [.ofText "-f"]) :=
      complete.append_word (by decide)
    have whole := flag.withEnvironment env.exports_ne_nil env.isName_exports
    rw [composeCall, composeCommand_eq _ _ nonempty]
    exact Ssh.reads_row_iff _ whole (words subcommand h)
  | configure container =>
    rw [copyCommand_eq]
    exact Ssh.reads_row_iff _ copy (List.forall_mem_nil _)
  | stage index key =>
    refine iff_of_true ((Ssh.reads_write ssh).2 ?_) (List.forall_mem_nil _)
    simpa using tokens?_writeCommand (stagingPath phase.compose.fileName index)
  | install index container =>
    rw [installCall, copyCommand_eq]
    exact Ssh.reads_row_iff _ copy (List.forall_mem_nil _)
  | remove index =>
    rw [removeCall, removeCommand_eq]
    exact Ssh.reads_row_iff _ remove (List.forall_mem_nil _)

end

/-! ### Deployments -/

/-- A call ships a file, or its command is read as it is meant exactly when the texts
that stand in it as they are are words. -/
def IsSent (ssh : Ssh) (settings : Settings) (phase : PhasePlan) (env : HostEnvironment)
    (configName : String) (tool : List Token) (c : Call) : Prop :=
  Ships settings phase env configName c ∨ ∃ front texts back,
    Passes settings phase env configName tool c front texts back ∧
      (ssh.Reads c (front ++ texts.map .ofText ++ back) ↔ ∀ text ∈ texts, IsWord text.toList)

namespace PhasePlan

open Program

variable {ssh : Ssh} {settings : Settings} (phase : PhasePlan) {env : HostEnvironment}
  {configName : String} {tool front back : List Token} {texts : List String} {c : Call}

/-- One call that passes some texts is sent as a call of the deployment. -/
theorem everyCall_isSent (complete : Complete settings.composeCommand tool)
    (h : Passes settings phase env configName tool c front texts back) :
    (perform c).EveryCall (IsSent ssh settings phase env configName tool) :=
  everyCall_call (.inr ⟨front, texts, back, h, h.reads_iff complete⟩)

/-- All calls that equip a container are calls of the deployment. -/
theorem everyCall_equip_isSent (complete : Complete settings.composeCommand tool)
    (position : UInt64) (place : Nat) (container : String) :
    (phase.equip position env.host configName place container).EveryCall
      (IsSent ssh settings phase env configName tool) := by
  refine (phase.everyCall_isSent complete (.configure container)).bind fun _ => ?_
  refine (everyCall_ended _).bind fun ⟨index, key⟩ => ?_
  refine (phase.everyCall_isSent complete (.stage index key)).bind fun _ => ?_
  refine (phase.everyCall_isSent complete (.install index container)).bind fun _ => ?_
  exact (phase.everyCall_isSent complete (.remove index)).bind fun _ => everyCall_pure _

/-- All calls that equip containers are calls of the deployment. -/
theorem everyCall_equipAll_isSent (complete : Complete settings.composeCommand tool)
    (position : UInt64) : ∀ (place : Nat) (containers : List String),
      (phase.equipAll position env.host configName place containers).EveryCall
        (IsSent ssh settings phase env configName tool)
  | _, [] => trivial
  | place, container :: containers =>
    (phase.everyCall_equip_isSent complete position place container).bind fun _ =>
      everyCall_equipAll_isSent complete position (place + 1) containers

/-- **Every call of a deployment** passes texts in one of the known ways, each where its command
has a place for it. -/
theorem everyCall_deploy_isSent (complete : Complete settings.composeCommand tool)
    (named : settings.configName = .ok configName) (position : UInt64) :
    (phase.deploy settings position env).EveryCall
      (IsSent ssh settings phase env configName tool) := by
  have compose : ∀ subcommand ∈ composeSubcommands,
      (perform (composeCall settings phase env subcommand)).EveryCall
        (IsSent ssh settings phase env configName tool) := by
    rw [← intercalate_composeWords]
    intro subcommand h
    obtain ⟨words, hw, rfl⟩ := List.mem_map.1 h
    exact phase.everyCall_isSent complete (.compose hw)
  rw [deploy, named]
  refine (everyCall_call (.inl .compose)).bind fun _ => ?_
  refine (compose "pull" (by simp [composeSubcommands])).bind fun _ => ?_
  refine (compose "rm -fs" (by simp [composeSubcommands])).bind fun _ => ?_
  refine (compose "up --no-start" (by simp [composeSubcommands])).bind fun _ => ?_
  refine (everyCall_call (.inl .config)).bind fun _ => ?_
  refine (compose "ps -q" (by simp [composeSubcommands])).bind fun listing => ?_
  refine (everyCall_ended _).bind fun containers => ?_
  refine (phase.everyCall_equipAll_isSent complete position 0 containers).bind fun _ => ?_
  exact (compose "restart" (by simp [composeSubcommands])).bind fun _ => everyCall_pure _

/-- **Commands are read as they are meant exactly when names are words.** In every
deployment of a host, a call ships a file, or its command is read as it is meant if
and only if every text that stands in it as it is is a word. A path in the working
directory is one exactly when the name is plain. -/
theorem deploy_reads_iff (ssh : Ssh) (phase : PhasePlan) (settings : Settings) (position : UInt64)
    (env : HostEnvironment) (configName : String) (named : settings.configName = .ok configName)
    (tool : List Token) (complete : Complete settings.composeCommand tool) {σ : Type}
    (remote : Remote σ) (place : Nat) (s : σ) (t : Nat) :
    ∃ xs : List Exchange,
      ((phase.deploy settings position env).run remote place s t).events =
        xs.flatMap (Exchange.events place) ∧
      (∀ x ∈ xs, IsSent ssh settings phase env configName tool x.call) ∧
      (∀ index, IsWord (stagingPath phase.compose.fileName index).toList ↔
        IsPlain phase.compose.fileName.toList) ∧
      (IsWord (inWorkingDirectory configName).toList ↔ IsPlain configName.toList) := by
  obtain ⟨xs, events, runs⟩ := (phase.deploy settings position env).runs_run remote place s t
  exact ⟨xs, events, runs.everyCall (phase.everyCall_deploy_isSent complete named position),
    isWord_stagingPath, isWord_inWorkingDirectory⟩

end PhasePlan

/-- A compose file with a space in its name. -/
def ComposeFile.spaced : ComposeFile :=
  ⟨"my node.yml", "my node.yml", "my node"⟩

/-- A compose file may have a space in its name. -/
theorem ComposeFile.parse_spaced :
    parse "my node.yml" "services:\n  node: x\n" = .ok spaced := by decide +kernel

namespace PhasePlan

/-- That compose file is accepted, and its host does all it is told. -/
theorem deploy_reads_iff_spaced :
    ∃ file, ComposeFile.parse "my node.yml" "services:\n  node: x\n" = .ok file ∧
      ∃ xs : List Exchange, ((deploy ⟨["b"], file, ⟨["k"]⟩, ⟨1, 1, by decide⟩, 1, rfl⟩ .standard 0
          ⟨"b", "v1", none⟩).run (Script.remote [Script.readyHost "b" ["x"]]) 0 [] 0).events =
            xs.flatMap (Exchange.events 0) ∧
        ∀ x ∈ xs, IsSent ⟨"root", []⟩ .standard ⟨["b"], file, ⟨["k"]⟩, ⟨1, 1, by decide⟩, 1, rfl⟩
          ⟨"b", "v1", none⟩ "Config.toml" [.ofText "docker-compose"] x.call := by
  have complete : Complete Settings.standard.composeCommand [.ofText "docker-compose"] := by
    decide +kernel
  obtain ⟨xs, events, sent, -⟩ := deploy_reads_iff ⟨"root", []⟩
    ⟨["b"], .spaced, ⟨["k"]⟩, ⟨1, 1, by decide⟩, 1, rfl⟩ .standard 0 ⟨"b", "v1", none⟩ "Config.toml" rfl _
    complete (Script.remote [Script.readyHost "b" ["x"]]) 0 [] 0
  exact ⟨_, ComposeFile.parse_spaced, xs, events, sent⟩

/-- That deployment writes the keypair to the file with the space in its name, and
removes two others. -/
theorem misread_spaced :
    ∃ file, ComposeFile.parse "my node.yml" "services:\n  node: x\n" = .ok file ∧
      ∃ write remove,
        (∀ c ∈ [write, remove], c ∈
          ((deploy ⟨["b"], file, ⟨["k"]⟩, ⟨1, 1, by decide⟩, 1, rfl⟩ .standard 0 ⟨"b", "v1", none⟩).run
            (Script.remote [Script.readyHost "b" ["x"]]) 0 [] 0).events.filterMap
              Event.issuedCall?) ∧
        Ssh.Reads ⟨"root", []⟩ write (writeTokens ++ [.ofText "./my node.yml_0.key"]) ∧
        Ssh.Reads ⟨"root", []⟩ remove
          [.ofText "rm", .ofText "-f", .ofText "./my", .ofText "node.yml_0.key"] := by
  refine ⟨_, ComposeFile.parse_spaced, stageCall "b" "./my node.yml_0.key" "k",
    removeCall "b" "./my node.yml_0.key", ?_, ⟨rfl, _, rfl, ?_⟩, ⟨rfl, _, rfl, ?_⟩⟩
  · decide +kernel
  · decide +kernel
  · decide +kernel

end PhasePlan
end Rollout
