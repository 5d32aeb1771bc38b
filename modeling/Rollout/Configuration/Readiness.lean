/-
# The readiness section of a configuration

| field | when absent |
| --- | --- |
| `mode` | `settle` |
| `settle_ms` | 1000 |
| `interval_ms` | 500 |
| `timeout_secs` | 30 |

A field of the other mode has no effect.
-/

import Rollout.Container.Introspection

namespace Rollout
namespace Configuration

/-- The two ways to wait. -/
inductive ReadinessMode where
  | settle
  | poll
  deriving DecidableEq, Repr

/-- How to wait, as configured. -/
structure ReadinessSection where
  mode : ReadinessMode
  settleMs : UInt64
  intervalMs : UInt64
  timeoutSecs : UInt64
  deriving DecidableEq, Repr

namespace ReadinessSection

/-- The section where nothing is configured. -/
def standard : ReadinessSection :=
  ⟨.settle, 1000, 500, 30⟩

/-- The configured way to wait. -/
def readiness (r : ReadinessSection) : Readiness :=
  match r.mode with
  | .settle => .settle r.settleMs.toNat
  | .poll => .poll r.intervalMs.toNat (r.timeoutSecs.toNat * 1000)

end ReadinessSection
end Configuration
end Rollout
