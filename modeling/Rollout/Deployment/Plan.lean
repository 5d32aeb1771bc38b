/-
# Plans

A phase brings the containers of one compose file to a list of hosts, equally
many to each host, and gives every container a keypair of its own; the keystore
must hold as many as the layout uses. A phase whose layout uses more than a word
can count is never made, so no index of a phase overflows. A plan is one phase
for the bootstrap hosts and one for the fleet.
-/

import Rollout.Compose
import Rollout.Keys.Keystore
import Rollout.Settings

namespace Rollout

/-- All that is needed to deploy one phase. -/
structure PhasePlan where
  hosts : List String
  compose : ComposeFile
  keystore : Keystore
  layout : KeyLayout
  /-- The capacity has been computed. -/
  sized : ∃ n, layout.capacity = .ok n
  deriving DecidableEq, Repr

namespace PhasePlan

/-- A phase whose keystore is large enough. -/
def make (hosts : List String) (compose : ComposeFile) (keystore : Keystore) (perHost : UInt64) :
    Except (Halt Failure) PhasePlan :=
  match KeyLayout.make (UInt64.ofNat hosts.length) perHost with
  | .error e => .error (.failed ⟨.layoutOf compose.fileName, [.layout e]⟩)
  | .ok layout =>
    match h : layout.capacity with
    | .error o => .error (.overflow o)
    | .ok capacity =>
      if keystore.size < capacity.toNat then
        .error (.failed (.of (.keystoreTooSmall compose.fileName keystore.size hosts.length
          perHost.toNat capacity.toNat)))
      else .ok ⟨hosts, compose, keystore, layout, capacity, h⟩

/-- The index of a container's keypair. It does not overflow, as the capacity does not. -/
def index (phase : PhasePlan) (host container : UInt64) : Except LayoutError UInt64 :=
  match h : phase.layout.index host container with
  | .ok i => .ok i
  | .error (.failed e) => .error e
  | .error (.overflow _) => absurd h (KeyLayout.index_ne_overflow phase.sized)

/-- The index in a phase is that in its layout. -/
theorem layout_index (phase : PhasePlan) (host container : UInt64) :
    phase.layout.index host container = (phase.index host container).mapError .failed := by
  unfold index
  split
  · rename_i h
    exact h
  · rename_i h
    exact h
  · rename_i h
    exact absurd h (KeyLayout.index_ne_overflow phase.sized)

/-- A container has its index in the layout. -/
theorem index_eq_ok {phase : PhasePlan} {host container i : UInt64} :
    phase.index host container = .ok i ↔ phase.layout.index host container = .ok i := by
  rw [layout_index, mapError_eq_ok]

end PhasePlan

/-- A deployment that is ready to run. -/
structure DeploymentPlan where
  environment : String
  settings : Settings
  bootstrap : PhasePlan
  fleet : PhasePlan
  deriving DecidableEq, Repr

end Rollout
