/-
# What a deployment puts out as JSON

A deployment that succeeds puts out its report, as JSON if it is told so, and then a
notice if the report was also written to a file:

| told to write a file | the output is | the file is |
| --- | --- | --- |
| no | one JSON object | not there |
| yes | one JSON object and a line of text | the same JSON object |

So the file can be read by a program always, the output only without the file.

Main statement: `CommandLine.deploy_json_decodes_iff`.
-/

import Rollout.CommandLine.Run
import Rollout.Proofs.Deployment.FromCalls
import Rollout.Proofs.Deployment.Policies
import Rollout.Proofs.Files.Written
import Rollout.Proofs.Report.Export

namespace Rollout

/-! ### Reports -/

namespace Report

variable {r : Report}

/-- The text is one JSON object, and the report is read from it. -/
def DecodedFrom (r : Report) (text : String) : Prop :=
  ∃ members, Json.read? text = some (.object members) ∧ r.ReadFrom members

/-- A report is read from its line. -/
theorem decodedFrom_line (r : Report) : r.DecodedFrom (r.jsonText ++ "\n") := by
  obtain ⟨members, alone, back⟩ := r.jsonText_read
  refine ⟨members, ?_, back⟩
  rw [← alone, jsonText, Json.read?_text_append r.numberFree, Json.read?_text r.numberFree]
  rfl

/-- A report with a notice behind it is not JSON. -/
theorem read?_noticed (r : Report) (path : String) :
    Json.read? (r.jsonText ++ "\n" ++ ("Report written to: " ++ path ++ "\n")) = none := by
  have notice : ("\n" ++ ("Report written to: " ++ path ++ "\n")).toList =
      '\n' :: 'R' :: ("eport written to: " ++ path ++ "\n").toList := by
    simp [String.toList_append]
  rw [String.append_assoc, jsonText, Json.read?_text_append r.numberFree, notice]
  rfl

/-- **A report that is written is read back** from its file. -/
theorem decodedFrom_of_write {home : Option (List Char)} {path : String} {tree tree' : FileTree}
    (h : r.write home path tree = .ok tree') :
    ∃ text, tree'.files.readText (String.ofList (Path.expandHome home path.toList)) = .ok text ∧
      r.DecodedFrom text := by
  unfold write at h
  dsimp only at h
  split at h
  · cases h
  · split at h
    · cases h
    · rename_i written
      obtain rfl := Except.ok.inj h
      exact ⟨r.jsonText, FileTree.readText_of_write written, r.jsonText_read⟩

end Report

namespace CommandLine

variable {σ : Type} {target : Target} {o : DeployOptions} {w : Surroundings}

/-- The report of a deployment that has come to a directory. -/
def report (w : Surroundings) (plan : DeploymentPlan) (d : NodeDirectory) : Report :=
  ⟨w.time, plan.environment, plan.settings.tag, d⟩

/-- What is put out after the report. -/
def DeployOptions.notice (o : DeployOptions) : String :=
  match o.output with
  | none => ""
  | some path => "Report written to: " ++ path ++ "\n"

/-- A deployment that succeeds has a plan, and has come to a directory. -/
theorem exists_directory_of_success {remote : Ssh → Remote σ} {schedule : Schedule} {s : σ}
    {t : Nat} {e : Ending}
    (ended : ((Command.deploy target o).run w remote schedule s t).result = some e)
    (success : e.result = .ok ()) :
    ∃ plan d, o.plan target w = .ok plan ∧
      (plan.deploy (remote plan.settings.ssh) schedule plan.settings.readiness.patience s
        t).result = some (.ok d) ∧
      o.finish w plan d = e := by
  rw [Command.run, runDeploy] at ended
  cases planned : o.plan target w with
  | error f =>
    rw [planned] at ended
    obtain rfl := Option.some.inj ended
    cases success
  | ok plan =>
    rw [planned] at ended
    obtain ⟨r, deployed, rfl⟩ := Option.map_eq_some_iff.1 ended
    cases r with
    | error f => cases success
    | ok d => exact ⟨plan, d, rfl, deployed, rfl⟩

/-- A deployment that has a plan and comes to a directory ends with it. -/
theorem result_of_deployed {remote : Ssh → Remote σ} {schedule : Schedule} {s : σ} {t : Nat}
    {plan : DeploymentPlan} {d : NodeDirectory} (planned : o.plan target w = .ok plan)
    (deployed : (plan.deploy (remote plan.settings.ssh) schedule plan.settings.readiness.patience s
      t).result = some (.ok d)) :
    ((Command.deploy target o).run w remote schedule s t).result = some (o.finish w plan d) := by
  rw [Command.run, runDeploy, planned]
  exact congrArg (Option.map _) deployed

/-- What a deployment leaves that has succeeded: its output, and the report in its file. -/
theorem finish_eq_ok {plan : DeploymentPlan} {d : NodeDirectory}
    (success : (o.finish w plan d).result = .ok ()) :
    (o.finish w plan d).output = o.text (report w plan d) ++ o.notice ∧
      ∀ path, o.output = some path →
        (report w plan d).write w.home path w.tree = .ok (o.finish w plan d).tree := by
  unfold DeployOptions.finish DeployOptions.notice at *
  cases asked : o.output with
  | none => exact ⟨(String.append_empty ..).symm, nofun⟩
  | some path =>
    rw [asked] at success
    dsimp only at success ⊢
    split at success
    · cases success
    · rename_i tree written
      refine ⟨by simp only [report, String.append_assoc], fun path' same => ?_⟩
      obtain rfl := Option.some.inj same
      exact written

/-- **The output of a deployment is JSON exactly when no file is written.** Every
deployment that is told to put out JSON and succeeds has come to a directory. Its output
is the report of that directory, the environment and the tag as one JSON object, and a
notice behind it if a file was asked for: then the output is not JSON. A file that was
asked for is that object. -/
theorem deploy_json_decodes_iff (json : o.json = true) (w : Surroundings)
    (remote : Ssh → Remote σ) (schedule : Schedule) (s : σ) (t : Nat) {e : Ending}
    (ended : ((Command.deploy target o).run w remote schedule s t).result = some e)
    (success : e.result = .ok ()) :
    ∃ plan d, o.plan target w = .ok plan ∧
      (plan.deploy (remote plan.settings.ssh) schedule plan.settings.readiness.patience s
        t).result = some (.ok d) ∧
      e.output = (report w plan d).jsonText ++ "\n" ++ o.notice ∧
      ((report w plan d).DecodedFrom e.output ↔ o.output = none) ∧
      ∀ path, o.output = some path → Json.read? e.output = none ∧ ∃ text,
        e.tree.files.readText (String.ofList (Path.expandHome w.home path.toList)) = .ok text ∧
          (report w plan d).DecodedFrom text := by
  obtain ⟨plan, d, planned, deployed, rfl⟩ := exists_directory_of_success ended success
  obtain ⟨output, file⟩ := finish_eq_ok success
  rw [DeployOptions.text, if_pos json] at output
  have noticed : ∀ path, o.output = some path → Json.read? (o.finish w plan d).output = none := by
    intro path asked
    rw [output, DeployOptions.notice, asked]
    exact (report w plan d).read?_noticed path
  refine ⟨plan, d, planned, deployed, output, ?_, fun path asked => ⟨noticed path asked, ?_⟩⟩
  · cases asked : o.output with
    | none =>
      rw [output, DeployOptions.notice, asked, String.append_empty]
      exact iff_of_true (report w plan d).decodedFrom_line rfl
    | some path =>
      refine iff_of_false ?_ nofun
      rintro ⟨members, read, -⟩
      rw [noticed path asked] at read
      cases read
  · exact Report.decodedFrom_of_write (file path asked)

/-! ### The small plan from the command line -/

/-- The small configuration as a document. -/
def smallText : String :=
  "[bootstrap]\ncompose='boot.yml'\nkeystore='boot.keys'\n" ++
  "[fleet]\ncompose='node.yml'\nkeystore='node.keys'\n" ++
  "[environments.small]\nbootstrap=['a']\nnodes=['b','c']\n"

/-- The document among the files that it names. -/
def Surroundings.small : Surroundings where
  tree := { Configuration.smallFiles with
    entries := (["work", "fleet.toml"], .file smallText.toUTF8) ::
      Configuration.smallFiles.entries }
  home := none
  time := "2024-05-01T00:00:00+00:00"

/-- The small deployment, with JSON as its output and perhaps a file. -/
def DeployOptions.small (output : Option String) : DeployOptions :=
  ⟨none, true, false, output, true⟩

/-- The small options make the small plan, whatever file the report goes to. -/
theorem plan_small (output : Option String) :
    (DeployOptions.small output).plan ⟨"fleet.toml", none⟩ .small = .ok DeploymentPlan.small := by
  have planned : (DeployOptions.small none).plan ⟨"fleet.toml", none⟩ .small =
      .ok DeploymentPlan.small := by
    decide +kernel
  exact planned

/-- The small deployment comes to a directory, so it ends with its report. -/
theorem exists_finish_small (output : Option String) :
    ∃ d, ((Command.deploy ⟨"fleet.toml", none⟩ (.small output)).run .small
        (fun _ => Script.remote Script.small) .earliest [] 0).result =
      some ((DeployOptions.small output).finish .small DeploymentPlan.small d) := by
  have each : ((DeploymentPlan.small.deployEach (Script.remote Script.small) 1 [] 0).result.bind
      Except.toOption).map (fun d => d.failures.length) = some 1 := by
    decide +kernel
  obtain ⟨d, deployed, -⟩ := DeploymentPlan.exists_directory_of_each .earliest
    (Script.remote_isLocal Script.small) (by decide) each
  exact ⟨d, result_of_deployed (plan_small output) deployed⟩

/-- Without a file the output of the small deployment is its report. -/
theorem deploy_json_decodes_iff_small : ∃ e plan d,
    ((Command.deploy ⟨"fleet.toml", none⟩ (.small none)).run .small
      (fun _ => Script.remote Script.small) .earliest [] 0).result = some e ∧
    e.result = .ok () ∧ (report .small plan d).DecodedFrom e.output := by
  obtain ⟨d, ended⟩ := exists_finish_small none
  obtain ⟨plan, d, -, -, -, decodes, -⟩ := deploy_json_decodes_iff rfl .small
    (fun _ => Script.remote Script.small) .earliest [] 0 ended rfl
  exact ⟨_, plan, d, ended, rfl, decodes.2 rfl⟩

/-- With a file the output of the small deployment is not JSON. -/
theorem deploy_json_noticed : ∃ e,
    ((Command.deploy ⟨"fleet.toml", none⟩ (.small (some "out.json"))).run .small
      (fun _ => Script.remote Script.small) .earliest [] 0).result = some e ∧
    e.result = .ok () ∧ Json.read? e.output = none := by
  obtain ⟨d, ended⟩ := exists_finish_small (some "out.json")
  have success : ((DeployOptions.small (some "out.json")).finish .small DeploymentPlan.small
      d).result = .ok () := rfl
  refine ⟨_, ended, success, ?_⟩
  rw [(finish_eq_ok success).1]
  exact Report.read?_noticed _ "out.json"

end CommandLine
end Rollout
