/-
# Where the layout counts exactly

The size of a layout and the positions in it are exact where they are anything, and
overflow everywhere else (`KeyLayout.capacity_eq_ok`, `KeyLayout.Slot.index_eq_ok`).
With `n` containers in all:

| | exactly when | else |
| --- | --- | --- |
| the size is `n` | `n < 2 ^ 64` | its product overflows |
| every container has the keypair at `host * perHost + place` | `n ≤ 2 ^ 64` | the first that overflows is at `2 ^ 64` |
| every keypair lies within the size | `n < 2 ^ 64` | there is no size |
| no two containers have one keypair | always | |
| a keystore that is accepted has a keypair for every container | always | |

Main statement: `KeyLayout.exact_iff`. Beyond these bounds no phase is rejected for
want of keypairs: making it overflows first (`PhasePlan.make_overflowing`).
-/

import Rollout.Proofs.Keys.Layout

namespace Rollout

namespace KeyLayout

/-- A place for a container on one of the hosts. -/
@[ext] structure Slot (l : KeyLayout) where
  host : UInt64
  place : UInt64
  host_lt : host < l.hosts
  place_lt : place < l.perHost

namespace Slot

variable {l : KeyLayout}

/-- The position of the container, counted host by host. -/
def position (x : l.Slot) : Nat :=
  x.host.toNat * l.perHost.toNat + x.place.toNat

/-- The positions are below the number of containers. -/
theorem position_lt (x : l.Slot) : x.position < l.containers :=
  KeyLayout.position_lt (UInt64.lt_iff_toNat_lt.1 x.host_lt) (UInt64.lt_iff_toNat_lt.1 x.place_lt)

/-- Different containers have different positions. -/
theorem eq_of_position_eq {x y : l.Slot} (h : x.position = y.position) : x = y := by
  obtain ⟨host, place⟩ := position_injective (UInt64.lt_iff_toNat_lt.1 x.place_lt)
    (UInt64.lt_iff_toNat_lt.1 y.place_lt) h
  exact Slot.ext (UInt64.toNat_inj.1 host) (UInt64.toNat_inj.1 place)

/-- Every position below the number of containers is that of a container. -/
theorem exists_of_lt {p : Nat} (h : p < l.containers) : ∃ x : l.Slot, x.position = p := by
  have pos := perHost_pos.2 l.perHost_ne_zero
  have host : p / l.perHost.toNat < l.hosts.toNat :=
    Nat.div_lt_of_lt_mul (by rwa [containers, Nat.mul_comm] at h)
  have place : p % l.perHost.toNat < l.perHost.toNat := Nat.mod_lt _ pos
  have host_eq : (UInt64.ofNat (p / l.perHost.toNat)).toNat = p / l.perHost.toNat :=
    UInt64.toNat_ofNat_of_lt' (Nat.lt_trans host l.hosts.toNat_lt)
  have place_eq : (UInt64.ofNat (p % l.perHost.toNat)).toNat = p % l.perHost.toNat :=
    UInt64.toNat_ofNat_of_lt' (Nat.lt_trans place l.perHost.toNat_lt)
  refine ⟨⟨_, _, UInt64.lt_iff_toNat_lt.2 (host_eq.symm ▸ host),
    UInt64.lt_iff_toNat_lt.2 (place_eq.symm ▸ place)⟩, ?_⟩
  change (UInt64.ofNat _).toNat * _ + (UInt64.ofNat _).toNat = p
  rw [host_eq, place_eq, Nat.div_add_mod']

/-- **The keypair of a container** is at its position, if it is anywhere. -/
theorem index_eq_ok {x : l.Slot} {i : UInt64} :
    l.index x.host x.place = .ok i ↔ i.toNat = x.position := by
  rw [KeyLayout.index_eq_ok]
  exact ⟨fun h => h.2.2, fun exactly => ⟨x.host_lt, x.place_lt, exactly⟩⟩

/-- The operation that overflows for a container, if one does: the product is computed first. -/
def operation (x : l.Slot) : Overflow :=
  if UInt64.size ≤ x.host.toNat * l.perHost.toNat then .multiply else .add

/-- A container whose position is no word has no keypair: computing it overflows. Nothing else
goes wrong for a container of the layout. -/
theorem index_eq_error {x : l.Slot} {h : Halt LayoutError} :
    l.index x.host x.place = .error h ↔
      UInt64.size ≤ x.position ∧ h = .overflow x.operation := by
  have error : ∀ o, l.position x.host x.place = .error o ↔
      UInt64.size ≤ x.position ∧ o = x.operation := by
    intro o
    rw [position_eq_error, operation, position]
    split
    · rename_i large
      have behind := Nat.le_add_right_of_le (k := x.place.toNat) large
      simp [large, behind, Nat.not_lt.2 large]
    · rename_i small
      simp [small, Nat.lt_of_not_le small]
  rw [index_of_lt x.host_lt x.place_lt, mapError_eq_error]
  constructor
  · rintro ⟨o, overflow, rfl⟩
    obtain ⟨large, rfl⟩ := (error o).1 overflow
    exact ⟨large, rfl⟩
  · rintro ⟨large, rfl⟩
    exact ⟨_, (error _).2 ⟨large, rfl⟩, rfl⟩

end Slot

/-- The size is the number of containers. -/
def CountsExactly (l : KeyLayout) : Prop :=
  ∃ n, l.capacity = .ok n ∧ n.toNat = l.containers

/-- Every container has the keypair at its position. -/
def IndexesExactly (l : KeyLayout) : Prop :=
  ∀ x : l.Slot, ∃ i, l.index x.host x.place = .ok i ∧ i.toNat = x.position

/-- The keypair of every container lies within the size. -/
def IndexesWithin (l : KeyLayout) : Prop :=
  ∀ x : l.Slot, ∃ i n, l.index x.host x.place = .ok i ∧ l.capacity = .ok n ∧ i < n

/-- No two containers have one keypair. -/
def IndexesApart (l : KeyLayout) : Prop :=
  ∀ (x y : l.Slot) (i : UInt64), l.index x.host x.place = .ok i →
    l.index y.host y.place = .ok i → x = y

section

variable {l : KeyLayout}

/-- The size is a number as long as the containers can be counted in a word. -/
theorem countsExactly_iff : l.CountsExactly ↔ l.containers < UInt64.size := by
  constructor
  · rintro ⟨n, -, exactly⟩
    exact exactly ▸ n.toNat_lt
  · exact fun fits => ⟨_, capacity_eq fits, UInt64.toNat_ofNat_of_lt' fits⟩

/-- The container at position `2 ^ 64`, if there is one, is the first without a keypair. -/
theorem indexesExactly_iff : l.IndexesExactly ↔ l.containers ≤ UInt64.size := by
  constructor
  · refine fun exactly => Nat.le_of_not_lt fun large => ?_
    obtain ⟨x, hx⟩ := Slot.exists_of_lt large
    obtain ⟨i, -, position⟩ := exactly x
    exact absurd i.toNat_lt (Nat.not_lt.2 (Nat.le_of_eq (hx.symm.trans position.symm)))
  · intro le x
    have position := UInt64.toNat_ofNat_of_lt' (Nat.lt_of_lt_of_le x.position_lt le)
    exact ⟨_, Slot.index_eq_ok.2 position, position⟩

/-- Where the containers cannot be counted there is no size to lie within. -/
theorem indexesWithin_iff : l.IndexesWithin ↔ l.containers < UInt64.size := by
  constructor
  · refine fun within => Nat.lt_of_not_le fun large => ?_
    have pos : 0 < l.containers := Nat.lt_of_lt_of_le (by decide) large
    obtain ⟨x, -⟩ := Slot.exists_of_lt pos
    obtain ⟨i, n, -, counted, -⟩ := within x
    exact absurd n.toNat_lt (Nat.not_lt.2 (capacity_eq_ok.1 counted ▸ large))
  · intro fits x
    obtain ⟨n, counted, size⟩ := countsExactly_iff.2 fits
    obtain ⟨i, hi, position⟩ := indexesExactly_iff.2 (Nat.le_of_lt fits) x
    refine ⟨i, n, hi, counted, UInt64.lt_iff_toNat_lt.2 ?_⟩
    rw [position, size]
    exact x.position_lt

/-- **No two containers ever have one keypair**, as an index is exact where there is one. -/
theorem indexesApart (l : KeyLayout) : l.IndexesApart := by
  intro x y i hx hy
  have position := Slot.index_eq_ok.1 hx
  exact Slot.eq_of_position_eq (position.symm.trans (Slot.index_eq_ok.1 hy))

end

/-- **The layout counts exactly** as long as the number of containers is a word, and overflows
where it does not: it never counts wrong, and only containers of the layout have an index. A phase
is made only with a keypair for every container, but where the containers are too many to be
counted, it is not for want of keypairs that it is not made. -/
theorem exact_iff (l : KeyLayout) :
    make l.hosts l.perHost = .ok l ∧
      (l.CountsExactly ↔ l.containers < UInt64.size) ∧
      (l.IndexesExactly ↔ l.containers ≤ UInt64.size) ∧
      (l.IndexesWithin ↔ l.containers < UInt64.size) ∧
      l.IndexesApart ∧
      (∀ o, l.capacity = .error o ↔ UInt64.size ≤ l.containers ∧ o = .multiply) ∧
      (∀ host place i, l.index host place = .ok i ↔ host < l.hosts ∧ place < l.perHost ∧
        i.toNat = host.toNat * l.perHost.toNat + place.toNat) ∧
      (∀ (x : l.Slot) (h : Halt LayoutError), l.index x.host x.place = .error h ↔
        UInt64.size ≤ x.position ∧ h = .overflow x.operation) ∧
      ∀ (hosts : List String) (compose : ComposeFile) (keystore : Keystore) (perHost : UInt64),
        hosts.length < UInt64.size →
        ((∃ phase, PhasePlan.make hosts compose keystore perHost = .ok phase) ↔
          perHost ≠ 0 ∧ hosts.length * perHost.toNat < UInt64.size ∧
            hosts.length * perHost.toNat ≤ keystore.size) ∧
        ∀ o, PhasePlan.make hosts compose keystore perHost = .error (.overflow o) ↔
          perHost ≠ 0 ∧ UInt64.size ≤ hosts.length * perHost.toNat ∧ o = .multiply := by
  refine ⟨dif_pos l.perHost_ne_zero, countsExactly_iff, indexesExactly_iff, indexesWithin_iff,
    l.indexesApart, fun o => ?_, fun _ _ _ => index_eq_ok, fun _ _ => Slot.index_eq_error,
    fun _ _ _ _ few => ?_⟩
  · rw [capacity, wordOf_eq_error, eq_comm (a := o)]
  · exact ⟨PhasePlan.exists_make_iff few, fun _ => PhasePlan.make_eq_overflow_iff few⟩

end KeyLayout

/-- Eight hosts with `2 ^ 62` containers each have a layout that cannot be counted: its size
overflows, and so does the index of the first container of the fifth host. A phase of them is not
rejected for its one keypair, but overflows. -/
theorem PhasePlan.make_overflowing :
    ∃ l : KeyLayout, KeyLayout.make 8 4611686018427387904 = .ok l ∧
      l.capacity = .error .multiply ∧ ¬ l.CountsExactly ∧
      (4 : UInt64) < l.hosts ∧ 0 < l.perHost ∧ l.index 4 0 = .error (.overflow .multiply) ∧
      make ["a", "b", "c", "d", "e", "f", "g", "h"] ⟨"node.yml", "node.yml", "node"⟩ ⟨["k"]⟩
        4611686018427387904 = .error (.overflow .multiply) := by
  let l : KeyLayout := ⟨8, 4611686018427387904, by decide⟩
  let fifth : l.Slot := ⟨4, 0, by decide, by decide⟩
  refine ⟨l, rfl, wordOf_eq_error.2 ⟨by decide, rfl⟩, ?_, fifth.host_lt, fifth.place_lt,
    (KeyLayout.Slot.index_eq_error (x := fifth)).2 ⟨by decide, by decide⟩,
    (make_eq_overflow_iff (by decide)).2 ⟨by decide, by decide, rfl⟩⟩
  exact fun exactly => absurd (KeyLayout.countsExactly_iff.1 exactly) (by decide)

end Rollout
