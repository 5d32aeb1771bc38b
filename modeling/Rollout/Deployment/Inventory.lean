/-
# Inventories

An inventory lists the hosts of one target environment. The order of the hosts
fixes which keypair every container gets, so no host is listed twice, and a
fleet cannot start without a bootstrap host.
-/

import Rollout.Failure

namespace Rollout

/-- The hosts of a target environment. -/
structure Inventory where
  bootstrap : List String
  nodes : List String
  deriving DecidableEq, Repr

namespace Inventory

/-- Every host, the bootstrap hosts first. -/
def hosts (i : Inventory) : List String :=
  i.bootstrap ++ i.nodes

/-- The first host that has been listed before. -/
def firstRepeated? (seen : List String) : List String → Option String
  | [] => none
  | h :: hs => if seen.contains h then some h else firstRepeated? (h :: seen) hs

/-- The inventory has a bootstrap host and lists no host twice. -/
def validate (i : Inventory) : Except Failure Unit :=
  if i.bootstrap.isEmpty then .error (.of .noBootstrapHosts)
  else
    match firstRepeated? [] i.hosts with
    | some h => .error (.of (.hostTwice h))
    | none => .ok ()

end Inventory
end Rollout
