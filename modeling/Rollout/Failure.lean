/-
# Failures

A failure is a chain of causes, the outermost first: what was being done, and
behind it why that did not work. Each cause has one wording.

| written as | text |
| --- | --- |
| a chain | the causes' texts, one by one |
| a line | the causes' texts, a colon and a space between them |
-/

import Rollout.Container.Ports
import Rollout.Duration
import Rollout.Keys.Layout
import Rollout.Remote.Call

namespace Rollout

/-- The two phases of a deployment. -/
inductive Phase where
  | bootstrap
  | fleet
  deriving DecidableEq, Repr

/-- One reason in a chain. -/
inductive Cause where
  /-- A local file could not be used. -/
  | file (error : FileError)
  /-- A call ended without success. -/
  | callFailed (call : Call) (status : ExitStatus) (stderr : String)
  /-- The program that makes a call could not be started. -/
  | callNotStarted (call : Call) (program : String)
  | start (error : StartError)
  | ports (error : Container.PortError)
  | portsOf (container host : String)
  | notReady (container host : String) (timeout : Nat) (last : String)
  | keystoreUnreadable (path : String)
  | keyOutside (index size : Nat)
  | layout (error : LayoutError)
  | layoutOf (file : String)
  | keystoreTooSmall (file : String) (size hosts perHost needed : Nat)
  | noKeySlot (container host : String)
  | composeUnnamed (path : String)
  | composeUnreadable (path : String)
  | composeInvalid (path : String)
  | composeEmpty (path : String)
  | configUnreadable (path : String)
  | configInvalid (path : String)
  | environmentUnknown (name : String) (known : List String)
  | environmentNotChosen (count : Nat)
  | noBootstrapHosts
  | hostTwice (host : String)
  | nodeConfigMissing (path : String)
  | nodeConfigUnnamed (path : String)
  | preparing (phase : Phase)
  | planInvalid
  | containerCount (host : String) (found : Nat) (service : String) (expected : Nat)
  | deploymentOf (host : String)
  | phaseHost (phase : Phase) (host : String)
  | noBootstrapNodes
  | noBootstrapAddress
  | anonymousNode (address : String)
  | parentNotMade (path : String)
  | reportNotWritten (path : String)
  | unreachable (failed total : Nat)
  deriving DecidableEq, Repr

/-- The ports of a listing, as found. -/
def Container.portList (found : List String) : String :=
  "[" ++ ", ".intercalate (found.map fun p => "\"" ++ p ++ "\"") ++ "]"

/-- The words for a port error. -/
def Container.PortError.message : Container.PortError → String
  | count found =>
    "expected exactly two node ports (7xxx tcp, 9xxx ws), found " ++ toString found.length ++
      ": " ++ portList found
  | clash found =>
    "cannot classify ports " ++ portList found ++ ": need one 7xxx and one 9xxx port"

/-- The words for a layout error. -/
def LayoutError.message : LayoutError → String
  | noContainers => "containers per host must be at least 1"
  | hostOutside position hosts =>
    "host position " ++ toString position ++ " outside host list of " ++ toString hosts
  | containerOutside position perHost =>
    "container position " ++ toString position ++ " exceeds " ++ toString perHost ++
      " containers per host"

/-- The words for a cause. -/
def Cause.message : Cause → String
  | file error => error.message
  | callFailed call status stderr =>
    call.text ++ " failed (" ++ status.text ++ "): " ++ Text.trimmed stderr
  | callNotStarted call program => "Failed to execute " ++ program ++ " for " ++ call.text
  | start error => error.message
  | ports error => error.message
  | portsOf container host =>
    "Ports of container " ++ container ++ " on " ++ host ++ " not discoverable"
  | notReady container host timeout last =>
    "node " ++ container ++ " on " ++ host ++ " did not become ready within " ++
      Duration.text timeout ++ ": " ++ last
  | keystoreUnreadable path => "failed to read keystore " ++ path
  | keyOutside index size =>
    "keypair index " ++ toString index ++ " out of range, keystore holds " ++ toString size ++
      " keypairs"
  | layout error => error.message
  | layoutOf name => "Invalid layout for " ++ name
  | keystoreTooSmall name size hosts perHost needed =>
    "Keystore for " ++ name ++ " holds " ++ toString size ++ " keypairs but " ++ toString hosts ++
      " hosts x " ++ toString perHost ++ " containers need " ++ toString needed
  | noKeySlot container host => "No keypair slot for container " ++ container ++ " on " ++ host
  | composeUnnamed path => "compose path " ++ path ++ " has no usable file name"
  | composeUnreadable path => "failed to read compose file " ++ path
  | composeInvalid path => "compose file " ++ path ++ " is not valid YAML"
  | composeEmpty path => "compose file " ++ path ++ " defines no services"
  | configUnreadable path => "Failed to read " ++ path
  | configInvalid path => "Failed to parse " ++ path
  | environmentUnknown name known =>
    "Unknown environment '" ++ name ++ "', known: " ++ ", ".intercalate known
  | environmentNotChosen count =>
    toString count ++ " environments configured, select one with --environment"
  | noBootstrapHosts => "Environment has no bootstrap hosts"
  | hostTwice host => "Host " ++ host ++ " listed more than once"
  | nodeConfigMissing path => "Node config file not found: " ++ path
  | nodeConfigUnnamed path => "Node config path " ++ path ++ " has no file name"
  | preparing .bootstrap => "Failed to prepare bootstrap phase"
  | preparing .fleet => "Failed to prepare fleet phase"
  | planInvalid => "Invalid deployment configuration"
  | containerCount host found service expected =>
    host ++ " created " ++ toString found ++ " containers for " ++ service ++ ", expected " ++
      toString expected
  | deploymentOf host => "Deployment of " ++ host ++ " failed"
  | phaseHost .bootstrap host => "Bootstrap host " ++ host ++ " failed"
  | phaseHost .fleet host => "Fleet host " ++ host ++ " failed"
  | noBootstrapNodes => "Bootstrap phase produced no nodes"
  | noBootstrapAddress => "Bootstrap node has no tcp multiaddr"
  | anonymousNode address => "Peer id of node " ++ address ++ " not found in its logs"
  | parentNotMade path => "Failed to create parent directory: " ++ path
  | reportNotWritten path => "Failed to write report to " ++ path
  | unreachable failed total =>
    toString failed ++ " of " ++ toString total ++ " hosts unreachable"

/-- The outermost cause and the causes behind it. -/
structure Failure where
  cause : Cause
  behind : List Cause
  deriving DecidableEq, Repr

namespace Failure

/-- A failure with nothing behind it. -/
def of (cause : Cause) : Failure :=
  ⟨cause, []⟩

/-- All causes, the outermost first. -/
def causes (f : Failure) : List Cause :=
  f.cause :: f.behind

/-- The failure as what is behind another cause. -/
def within (f : Failure) (outer : Cause) : Failure :=
  ⟨outer, f.causes⟩

/-- The words for every cause. -/
def chain (f : Failure) : List String :=
  f.causes.map Cause.message

/-- The chain on one line. -/
def line (f : Failure) : String :=
  ": ".intercalate f.chain

/-- The failure of a call. -/
def ofCall (c : Call) : CallError → Failure
  | .exited status stderr => of (.callFailed c status stderr)
  | .notStarted program error => ⟨.callNotStarted c program, [.start error]⟩

end Failure

/-- A result whose failure is put behind a cause. -/
def within {α : Type} (outer : Cause) : Except Failure α → Except Failure α
  | .ok a => .ok a
  | .error f => .error (f.within outer)

/-- The halt with its failure put behind a cause; nothing is put before an overflow. -/
def Halt.within (outer : Cause) : Halt Failure → Halt Failure
  | failed f => .failed (f.within outer)
  | overflow o => .overflow o

end Rollout
