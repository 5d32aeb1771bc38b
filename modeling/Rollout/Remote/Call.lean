/-
# Remote calls

Everything a deployment does on a host is one of three actions. A call has one
reply: the text the host answers, or the reason why there is none.

| action | written |
| --- | --- |
| run a command | ``[host] `command` `` |
| put a local file | `[host] put file -> remote` |
| write a text | `[host] write remote` |
-/

import Rollout.Files.Tree

namespace Rollout

/-- What is done on a host. -/
inductive Action where
  | run (command : String) (environment : List (String × String))
  | put (file remote : String)
  | write (contents remote : String)
  deriving DecidableEq, Repr

/-- One action on one host. -/
structure Call where
  host : String
  action : Action
  deriving DecidableEq, Repr

/-- How a program ended that did not succeed. -/
inductive ExitStatus where
  | code (n : Int)
  | signal (n : Nat)
  deriving DecidableEq, Repr

/-- Why a program could not be started. -/
inductive StartError where
  | notFound
  | nulInArgument
  deriving DecidableEq, Repr

/-- The words for a start error. -/
def StartError.message : StartError → String
  | notFound => FileError.notFound.message
  | nulInArgument => "nul byte found in provided data"

/-- Why a call has no answer. -/
inductive CallError where
  | exited (status : ExitStatus) (stderr : String)
  | notStarted (program : String) (error : StartError)
  deriving DecidableEq, Repr

/-- What comes back from a call. -/
abbrev Reply := Except CallError String

/-- The call in words; the contents of a file are never part of them. -/
def Call.text (c : Call) : String :=
  "[" ++ c.host ++ "] " ++
    match c.action with
    | .run command _ => "`" ++ command ++ "`"
    | .put file remote => "put " ++ file ++ " -> " ++ remote
    | .write _ remote => "write " ++ remote

/-- The names of the signals from 1 on. -/
def signalNames : List String :=
  ["SIGHUP", "SIGINT", "SIGQUIT", "SIGILL", "SIGTRAP", "SIGABRT", "SIGBUS", "SIGFPE", "SIGKILL",
    "SIGUSR1", "SIGSEGV", "SIGUSR2", "SIGPIPE", "SIGALRM", "SIGTERM", "SIGSTKFLT", "SIGCHLD",
    "SIGCONT", "SIGSTOP", "SIGTSTP", "SIGTTIN", "SIGTTOU", "SIGURG", "SIGXCPU", "SIGXFSZ",
    "SIGVTALRM", "SIGPROF", "SIGWINCH", "SIGIO", "SIGPWR", "SIGSYS"]

/-- A signal's name in round brackets, if it has one. -/
def signalSuffix (n : Nat) : String :=
  match signalNames[n - 1]? with
  | some name => if n = 0 then "" else " (" ++ name ++ ")"
  | none => ""

/-- The exit status in words. -/
def ExitStatus.text : ExitStatus → String
  | code n => "exit status: " ++ toString n
  | signal n => "signal: " ++ toString n ++ signalSuffix n

end Rollout
