/-
# The program

The program reads the command line and the files, runs the command and puts
out what it leaves. Its hosts are reached by whoever runs it: every invocation
of `ssh` or `scp` is asked for on the standard error, and its result is read
from the standard input, each as a JSON object on one line.

| member | of the question | of the answer |
| --- | --- | --- |
| `program`, `args`, `stdin` | what to run | |
| `stdout`, `stderr` | | what it has put out |
| `status` | | its exit code, absent if it could not be started |
| `signal` | | the signal that ended it, if one did |
-/

import Rollout.CommandLine.Inputs
import Rollout.Json.Reader
import Rollout.Remote.Transcript
import Rollout.Timestamp
import Rollout.Version
import Std.Time.DateTime.Timestamp

namespace Rollout
namespace CommandLine

/-! ## Questions and answers -/

/-- An invocation as JSON. -/
def questionJson (i : Invocation) : Json.Value :=
  .object [("program", .string i.program), ("args", .array (i.arguments.map .string)),
    ("stdin", .string i.stdin)]

/-- A text without its line feeds. -/
def onOneLine (s : String) : String :=
  String.ofList (s.toList.filter (· != '\n'))

/-- A member that is a string. -/
def textMember (v : Json.Value) (name : String) : String :=
  match v.member? name with
  | some (.string s) => s
  | _ => ""

/-- A member that is a number. -/
def numberMember? (v : Json.Value) (name : String) : Option Nat :=
  match v.member? name with
  | some (.number text) => text.toNat?
  | _ => none

/-- The reply that an answer is. -/
def replyOfJson (i : Invocation) (v : Json.Value) : Reply :=
  match numberMember? v "signal", numberMember? v "status" with
  | some n, _ => .error (.exited (.signal n) (textMember v "stderr"))
  | none, some 0 => .ok (textMember v "stdout")
  | none, some n => .error (.exited (.code n) (textMember v "stderr"))
  | none, none => .error (.notStarted i.program .notFound)

/-- Asks for an invocation and waits for its result. -/
def ask (i : Invocation) : IO Reply := do
  let stderr ← IO.getStderr
  stderr.putStrLn (onOneLine (questionJson i).text)
  stderr.flush
  let line ← (← IO.getStdin).getLine
  return replyOfJson i ((Json.read? line).getD .null)

/-- Makes a call and takes its time. -/
def make (ssh : Ssh) (c : Call) : IO Recorded := do
  let i := ssh.invocation c
  let start ← IO.monoMsNow
  let reply ← if i.isSound then ask i else pure (.error (.notStarted i.program .nulInArgument))
  return ⟨reply, (← IO.monoMsNow) - start⟩

/-! ## Files -/

/-- The path of a location. -/
def pathOf (l : Location) : String :=
  "/" ++ "/".intercalate l

/-- What is at a location. -/
def lookAt (l : Location) : IO (Option Entry) := do
  let path := (← IO.currentDir) / pathOf l
  if ← path.isDir then return some .directory
  try return some (.file (← IO.FS.readBinFile path)) catch _ => return none

/-- The tree with what is on the way along some components. -/
def lookAlong (tree : FileTree) (l : Location) : List String → IO FileTree
  | [] => return tree
  | name :: names => do
    if name = "." then lookAlong tree l names
    else if name = ".." then lookAlong tree l.dropLast names
    else
      let l := l ++ [name]
      match ← lookAt l with
      | some e => lookAlong (tree.put l e) l names
      | none => return tree

/-- The tree with what is on the way along some paths. -/
def lookAll (tree : FileTree) (paths : List (List Char)) : IO FileTree :=
  paths.foldlM (fun tree path => lookAlong tree (tree.start path) (FileTree.steps path)) tree

/-- The tree with the working directory alone. -/
def emptyTree : IO FileTree := do
  let here := FileTree.steps (← IO.currentDir).toString.toList
  lookAlong ⟨[], here⟩ [] here

/-- Makes what is at a location. -/
def put (l : Location) (e : Entry) : IO Unit :=
  match e with
  | .directory => IO.FS.createDirAll (pathOf l)
  | .file bytes => IO.FS.writeBinFile (pathOf l) bytes

/-! ## Running a command -/

/-- The values of the variables. -/
def readVariables : IO Variables := do
  return ⟨← IO.getEnv "FLEET_CONFIG", ← IO.getEnv "FLEET_ENV", ← IO.getEnv "FLEET_TAG"⟩

/-- The time as the report gives it. -/
def currentTime : IO String := do
  return Timestamp.text (← Std.Time.Timestamp.now).toNanosecondsSinceUnixEpoch.val.toNat

/-- What a command finds. -/
def readSurroundings (command : Command) : IO Surroundings := do
  let home := (← IO.getEnv "HOME").map String.toList
  let w : Surroundings := ⟨← emptyTree, home, ← currentTime⟩
  -- The first look finds the configuration, the second the files that it names.
  let w := { w with tree := ← lookAll w.tree (command.paths w) }
  return { w with tree := ← lookAll w.tree (command.paths w) }

/-- Runs a command on longer and longer transcripts, until it asks for nothing
more. -/
partial def converse (command : Command) (w : Surroundings) (ssh : Ssh) (transcript : Transcript) :
    IO (Option Ending) := do
  let r := command.run w (fun _ => Transcript.remote) .oneByOne transcript 0
  match r.request? 0 transcript.length with
  | none => return r.result
  | some request =>
    IO.sleep (UInt32.ofNat request.pause)
    let recorded ← make ssh request.call
    converse command w ssh (transcript ++ [recorded])

/-- Puts out what a command leaves. -/
def finish (before : FileTree) (e : Ending) : IO UInt32 := do
  (← IO.getStdout).putStr e.output
  for (l, entry) in (e.tree.since before).reverse do
    put l entry
  match e.result with
  | .ok () => return 0
  | .error (.failed f) =>
    (← IO.getStderr).putStrLn ("Error: " ++ f.line)
    return 1
  | .error (.overflow o) =>
    (← IO.getStderr).putStrLn o.message
    return Overflow.exitCode

/-- Runs a command. -/
def runCommand (command : Command) : IO UInt32 := do
  let w ← readSurroundings command
  let ssh := (command.ssh w).toOption.getD ⟨"", []⟩
  match ← converse command w ssh [] with
  | some e => finish w.tree e
  | none => return 1

/-- How to use the program. -/
def usageText : String :=
  "Usage: fleet-cli deploy [-c FILE] [-e NAME] [-t TAG] [--partial] [--strict-identity]\n" ++
  "                        [-o FILE] [--json]\n" ++
  "       fleet-cli check [-c FILE] [-e NAME]\n" ++
  "       fleet-cli introspect --host HOST --container CONTAINER [-c FILE]\n"

/-- Says why there is nothing to run. -/
def explain (u : Usage) : IO UInt32 := do
  match u with
  | .version => (← IO.getStdout).putStr versionLine
  | .help => (← IO.getStdout).putStr usageText
  | _ => (← IO.getStderr).putStr usageText
  return UInt32.ofNat u.exitCode

/-- Does what a command line says. -/
def start (words : List String) : IO UInt32 := do
  match Command.read (← readVariables) words with
  | .ok command => runCommand command
  | .error u => explain u

end CommandLine
end Rollout

/-- The program. -/
def main (args : List String) : IO UInt32 :=
  Rollout.CommandLine.start args
