/-
# The version
-/

namespace Rollout

/-- The version of the program. -/
def version : String := "0.3.0"

/-- The line in which the program names itself and its version. -/
def versionLine : String := "fleet-cli " ++ version ++ "\n"

end Rollout
