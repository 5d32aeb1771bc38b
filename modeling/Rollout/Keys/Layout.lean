/-
# The layout of keypairs over hosts

Every container of a phase gets the keypair at `p * k + c`, where `p` is the
position of its host, `k` the number of containers on a host and `c` the
container's position there. Sizes and positions are 64-bit words, and so are
the products and sums of them: where one is no word, it overflows. In a layout
whose capacity is a word no index overflows (`KeyLayout.index_ne_overflow`).
-/

import Rollout.Overflow

namespace Rollout

/-- How many hosts a phase has, and how many containers on each. -/
structure KeyLayout where
  hosts : UInt64
  perHost : UInt64
  perHost_ne_zero : perHost ≠ 0
  deriving DecidableEq, Repr

/-- Why a layout does not exist or has no place for a container. -/
inductive LayoutError where
  | noContainers
  | hostOutside (position hosts : UInt64)
  | containerOutside (position perHost : UInt64)
  deriving DecidableEq, Repr

namespace KeyLayout

/-- The layout of so many hosts with so many containers each. -/
def make (hosts perHost : UInt64) : Except LayoutError KeyLayout :=
  if h : perHost ≠ 0 then .ok ⟨hosts, perHost, h⟩ else .error .noContainers

/-- The number of containers. -/
def containers (l : KeyLayout) : Nat :=
  l.hosts.toNat * l.perHost.toNat

/-- The number of keypairs that the layout uses. -/
def capacity (l : KeyLayout) : Except Overflow UInt64 :=
  wordOf .multiply l.containers

/-- The position of a container, counted host by host. -/
def position (l : KeyLayout) (host container : UInt64) : Except Overflow UInt64 :=
  match wordOf .multiply (host.toNat * l.perHost.toNat) with
  | .error o => .error o
  | .ok first => wordOf .add (first.toNat + container.toNat)

/-- The keypair of a container. -/
def index (l : KeyLayout) (host container : UInt64) : Except (Halt LayoutError) UInt64 :=
  if host < l.hosts then
    if container < l.perHost then (l.position host container).mapError .overflow
    else .error (.failed (.containerOutside container l.perHost))
  else .error (.failed (.hostOutside host l.hosts))

variable {l : KeyLayout} {host container i : UInt64}

/-- **The capacity is the number of containers**, if it is anything. -/
theorem capacity_eq_ok : l.capacity = .ok i ↔ i.toNat = l.containers :=
  wordOf_eq_ok

/-- **A position is exact**, if it is anything. -/
theorem position_eq_ok : l.position host container = .ok i ↔
    i.toNat = host.toNat * l.perHost.toNat + container.toNat := by
  unfold position
  cases first : wordOf .multiply (host.toNat * l.perHost.toNat) with
  | error o =>
    refine ⟨nofun, fun exactly => ?_⟩
    have large := (wordOf_eq_error.1 first).1
    have small : i.toNat < UInt64.size := i.toNat_lt
    omega
  | ok w => rw [wordOf_eq_ok, wordOf_eq_ok.1 first]

/-- The product overflows when it is no word, else the sum when that is none. -/
theorem position_eq_error {o : Overflow} : l.position host container = .error o ↔
    UInt64.size ≤ host.toNat * l.perHost.toNat ∧ o = .multiply ∨
      host.toNat * l.perHost.toNat < UInt64.size ∧
        UInt64.size ≤ host.toNat * l.perHost.toNat + container.toNat ∧ o = .add := by
  unfold position
  cases first : wordOf .multiply (host.toNat * l.perHost.toNat) with
  | error o' =>
    obtain ⟨large, rfl⟩ := wordOf_eq_error.1 first
    simp [large, Nat.not_lt.2 large, eq_comm]
  | ok w =>
    have exactly := wordOf_eq_ok.1 first
    have small : host.toNat * l.perHost.toNat < UInt64.size := exactly ▸ w.toNat_lt
    dsimp only
    rw [wordOf_eq_error, exactly]
    simp [small, Nat.not_le.2 small, eq_comm]

/-- A container comes before all containers of the hosts behind its own. -/
theorem position_lt {hosts perHost host place : Nat} (hh : host < hosts) (hp : place < perHost) :
    host * perHost + place < hosts * perHost :=
  calc host * perHost + place < host * perHost + perHost := Nat.add_lt_add_left hp _
    _ = (host + 1) * perHost := (Nat.succ_mul ..).symm
    _ ≤ hosts * perHost := Nat.mul_le_mul_right _ hh

/-- **In a layout whose capacity is a word no index overflows.** -/
theorem index_ne_overflow (sized : ∃ n, l.capacity = .ok n) {o : Overflow} :
    l.index host container ≠ .error (.overflow o) := by
  intro overflow
  unfold index at overflow
  split at overflow
  · rename_i hh
    split at overflow
    · rename_i hp
      obtain ⟨n, hn⟩ := sized
      have lt : host.toNat * l.perHost.toNat + container.toNat < l.containers :=
        position_lt (UInt64.lt_iff_toNat_lt.1 hh) (UInt64.lt_iff_toNat_lt.1 hp)
      have small : l.containers < UInt64.size := capacity_eq_ok.1 hn ▸ n.toNat_lt
      have counted : l.position host container = .ok
          (UInt64.ofNat (host.toNat * l.perHost.toNat + container.toNat)) :=
        position_eq_ok.2 (UInt64.toNat_ofNat_of_lt' (Nat.lt_trans lt small))
      rw [counted] at overflow
      cases overflow
    · cases overflow
  · cases overflow

end KeyLayout
end Rollout
