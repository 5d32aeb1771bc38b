/-
# Scripted hosts

A script says how hosts answer, so that a deployment can be rehearsed without
any. A call has a target: the command that is run, `put` and the remote path of
a file, or `write` and the remote path of a text. The first of these that
applies answers it:

| case | answer |
| --- | --- |
| the host is not in the script | status 255, no route to host |
| a rule of the host fits | what the rule says |
| the target ends in `ps -q` | the listing, or the ids of the host's containers |
| `docker port id`, `docker logs id 2>&1` | the next text of the container; the last one stays |
| `uname -a` | the host's text for it |
| any other | an empty text |

A rule fits when the target contains its text and the rule's matches so far lie
between `skip` and `skip + times`. Matches are counted from the first rule on
up to the rule that fits.
-/

import Rollout.Remote.Run
import Rollout.Remote.Ssh

namespace Rollout
namespace Script

/-- A container that answers with texts, one after the other. -/
structure Container where
  id : String
  ports : List String
  logs : List String
  deriving Repr

/-- A rule that answers in place of the host. -/
structure Rule where
  text : String
  skip : Nat
  /-- Without end if absent. -/
  times : Option Nat
  reply : Reply

/-- How one host answers. -/
structure Host where
  name : String
  containers : List Container
  listing : Option String
  system : Option String
  rules : List Rule
  delay : Nat

/-- What has happened on one host: the matches of each rule, and the readings of
each container's ports and logs. -/
structure Memory where
  name : String
  matched : List Nat
  portsRead : List (String × Nat)
  logsRead : List (String × Nat)
  deriving Repr

/-- What has happened on all hosts. -/
abbrev State := List Memory

/-- The reply of a program that exits with an error. -/
def refusal (code : Int) (stderr : String) : Reply :=
  .error (.exited (.code code) stderr)

/-- The rule fits after so many matches. -/
def Rule.fits (r : Rule) (matched : Nat) : Bool :=
  r.skip ≤ matched &&
    match r.times with
    | some n => matched < r.skip + n
    | none => true

/-- Goes through the rules with their matches so far. -/
def applyRules (target : List Char) : List Rule → List Nat → Option Reply × List Nat
  | [], counts => (none, counts)
  | r :: rs, counts =>
    let n := counts.headD 0
    if Text.contains r.text.toList target then
      if r.fits n then (some r.reply, (n + 1) :: counts.tail)
      else
        let (reply, rest) := applyRules target rs counts.tail
        (reply, (n + 1) :: rest)
    else
      let (reply, rest) := applyRules target rs counts.tail
      (reply, n :: rest)

/-- The text at a position; the last one stays. -/
def textAt (texts : List String) (n : Nat) : String :=
  (texts[n]?).getD (texts.getLast?.getD "")

/-- Counts a reading. -/
def countReading (id : String) : List (String × Nat) → List (String × Nat)
  | [] => [(id, 1)]
  | (name, n) :: rest => if name = id then (name, n + 1) :: rest else (name, n) :: countReading id rest

/-- The readings of a container so far. -/
def readings (id : String) (counts : List (String × Nat)) : Nat :=
  (counts.lookup id).getD 0

/-- The refusal for a container that does not exist. -/
def noContainer (id : String) : Reply :=
  refusal 1 ("Error: No such container: " ++ id)

/-- The container whose published ports a command lists. -/
def portsOf? (target : List Char) : Option String :=
  (Text.stripStart? "docker port ".toList target).map fun id => String.ofList (Text.trim id)

/-- The container whose log a command prints. -/
def logsOf? (target : List Char) : Option String :=
  match Text.stripStart? "docker logs ".toList target with
  | some rest => (Text.stripEnd? "2>&1".toList rest).map fun id => String.ofList (Text.trim id)
  | none => none

namespace Host

/-- The container with an id. -/
def container? (h : Host) (id : String) : Option Container :=
  h.containers.find? fun c => c.id == id

/-- Nothing has happened yet. -/
def untouched (h : Host) : Memory :=
  ⟨h.name, h.rules.map fun _ => 0, [], []⟩

/-- The answer to a target that no rule fits. -/
def plainAnswer (h : Host) (m : Memory) (target : List Char) : Reply × Memory :=
  if Text.endsWith "ps -q".toList target then
    (.ok (h.listing.getD ("\n".intercalate (h.containers.map Container.id))), m)
  else
    match portsOf? target, logsOf? target with
    | some id, _ =>
      match h.container? id with
      | some c =>
        (.ok (textAt c.ports (readings id m.portsRead)),
          { m with portsRead := countReading id m.portsRead })
      | none => (noContainer id, m)
    | none, some id =>
      match h.container? id with
      | some c =>
        (.ok (textAt c.logs (readings id m.logsRead)),
          { m with logsRead := countReading id m.logsRead })
      | none => (noContainer id, m)
    | none, none =>
      if target = "uname -a".toList then (.ok (h.system.getD "Linux\n"), m) else (.ok "", m)

/-- The answer to a target. -/
def answer (h : Host) (m : Memory) (target : List Char) : Reply × Memory :=
  let (reply, matched) := applyRules target h.rules m.matched
  let m := { m with matched := matched }
  match reply with
  | some r => (r, m)
  | none => h.plainAnswer m target

end Host

/-- What has happened on a host. -/
def memoryOf (s : State) (h : Host) : Memory :=
  (s.find? fun m => m.name == h.name).getD h.untouched

/-- The state with what has happened on one host. -/
def remember (s : State) (m : Memory) : State :=
  m :: s.filter fun other => other.name != m.name

/-- The answer of a host to a target. -/
def answer (hosts : List Host) (s : State) (name target : String) : Reply × State :=
  match hosts.find? fun h => h.name == name with
  | none => (refusal 255 ("ssh: connect to host " ++ name ++ ": no route to host"), s)
  | some h =>
    let (reply, m) := h.answer (memoryOf s h) target.toList
    (reply, remember s m)

/-- The target of an action. -/
def target : Action → String
  | .run command _ => command
  | .put _ remote => "put " ++ remote
  | .write _ remote => "write " ++ remote

/-- The scripted hosts as a remote. -/
def remote (hosts : List Host) : Remote State where
  latency _ c :=
    match hosts.find? fun h => h.name == c.host with
    | some h => h.delay
    | none => 0
  answer s c := Script.answer hosts s c.host (target c.action)

/-- The text after the last `sep`, or all of it. -/
def tailAfter (sep : Char) (cs : List Char) : List Char :=
  (Text.afterLast? sep cs).getD cs

/-- The host that an invocation reaches and the target it has there. -/
def addressee (i : Invocation) : String × String :=
  let last := i.arguments.getLast?.getD ""
  if i.program = "scp" then
    let host := (Text.beforeLast? ':' last.toList).getD last.toList
    (String.ofList (tailAfter '@' host), "put " ++ String.ofList (tailAfter ':' last.toList))
  else
    let place := i.arguments.dropLast.getLast?.getD ""
    (String.ofList (tailAfter '@' place.toList), last)

/-- The start error of an invocation where programs are installed or not. -/
def startError? (installed : Bool) (i : Invocation) : Option StartError :=
  if !i.isSound then some .nulInArgument
  else if installed then none
  else some .notFound

/-- The scripted hosts as they are reached over ssh, without any delay. -/
def sshRemote (hosts : List Host) (installed : Bool) (ssh : Ssh) : Remote State where
  latency _ _ := 0
  answer s c :=
    let i := ssh.invocation c
    match startError? installed i with
    | some e => (.error (.notStarted i.program e), s)
    | none =>
      let (name, target) := addressee i
      Script.answer hosts s name target

end Script
end Rollout
