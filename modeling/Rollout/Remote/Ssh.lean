/-
# Calls over ssh

A call becomes one invocation of a local program, in batch mode: `ssh` runs
commands and writes texts, `scp` copies files.

| call | program | last two arguments | standard input |
| --- | --- | --- | --- |
| run | `ssh` | `user@host`, the command with its environment | empty |
| write | `ssh` | `user@host`, `umask 077 && cat > 'remote'` | the contents |
| put | `scp` | the local file, `user@host:remote` | empty |
-/

import Rollout.Remote.Call
import Rollout.Shell

namespace Rollout

/-- A local program, its arguments and its standard input. -/
structure Invocation where
  program : String
  arguments : List String
  stdin : String
  deriving DecidableEq, Repr

/-- How hosts are reached: as which user and with which extra options. -/
structure Ssh where
  user : String
  options : List String
  deriving DecidableEq, Repr

/-- No argument holds a NUL character, which would end it early. -/
def Invocation.isSound (i : Invocation) : Bool :=
  i.arguments.all fun a => !a.toList.contains '\x00'

namespace Ssh

/-- The user on a host. -/
def destination (ssh : Ssh) (host : String) : String :=
  ssh.user ++ "@" ++ host

/-- The options of every invocation. -/
def baseArguments (ssh : Ssh) : List String :=
  "-o" :: "BatchMode=yes" :: ssh.options.flatMap fun option => ["-o", option]

/-- The command that writes its standard input to a file that only the user can
read. -/
def writeCommand (remote : String) : String :=
  "umask 077 && cat > " ++ Shell.quote remote

/-- The invocation that makes a call. -/
def invocation (ssh : Ssh) (c : Call) : Invocation :=
  match c.action with
  | .run command environment =>
    ⟨"ssh", ssh.baseArguments ++
      [ssh.destination c.host, Shell.withEnvironment command environment], ""⟩
  | .put file remote =>
    ⟨"scp", ssh.baseArguments ++ [file, ssh.destination c.host ++ ":" ++ remote], ""⟩
  | .write contents remote =>
    ⟨"ssh", ssh.baseArguments ++ [ssh.destination c.host, writeCommand remote], contents⟩

end Ssh
end Rollout
