/-
# The arithmetic of the layout

While `hosts * perHost` is below `2 ^ 64`, the size of a word, no sum or product
of the layout overflows, so every container has the keypair at
`host * perHost + place` (`KeyLayout.index_eq`), and no two containers have the
same one (`KeyLayout.position_injective`). A phase is made in no other case
(`PhasePlan.of_make`), and has all of these keypairs (`PhasePlan.keypairOf_eq`).
-/

import Rollout.Deployment.Host

namespace Rollout

namespace KeyLayout

variable {l : KeyLayout}

theorem perHost_pos {perHost : UInt64} : 0 < perHost.toNat ↔ perHost ≠ 0 := by
  rw [Nat.pos_iff_ne_zero, ne_eq, ne_eq, ← UInt64.toNat_inj, UInt64.toNat_zero]

/-- The capacity is the number of containers where that is a word. -/
theorem capacity_eq (fits : l.containers < UInt64.size) :
    l.capacity = .ok (UInt64.ofNat l.containers) :=
  capacity_eq_ok.2 (UInt64.toNat_ofNat_of_lt' fits)

/-- **Different containers have different positions** in the keystore. -/
theorem position_injective {perHost host place host' place' : Nat} (hp : place < perHost)
    (hp' : place' < perHost) (h : host * perHost + place = host' * perHost + place') :
    host = host' ∧ place = place' := by
  have pos : 0 < perHost := Nat.zero_lt_of_lt hp
  have key : ∀ {a b : Nat}, b < perHost → (a * perHost + b) / perHost = a := by
    intro a b hb
    rw [Nat.mul_comm, Nat.mul_add_div pos, Nat.div_eq_of_lt hb, Nat.add_zero]
  have hhost : host = host' := by rw [← key (a := host) hp, h, key hp']
  subst hhost
  exact ⟨rfl, Nat.add_left_cancel h⟩

/-- A container has the index that its position is, or none where the position overflows. -/
theorem index_of_lt {host place : UInt64} (hh : host < l.hosts) (hp : place < l.perHost) :
    l.index host place = (l.position host place).mapError .overflow := by
  rw [index, if_pos hh, if_pos hp]

/-- Only the containers of the layout have an index, and it is exact. -/
theorem index_eq_ok {host place i : UInt64} : l.index host place = .ok i ↔
    host < l.hosts ∧ place < l.perHost ∧
      i.toNat = host.toNat * l.perHost.toNat + place.toNat := by
  unfold index
  split
  · rename_i hh
    split
    · rename_i hp
      rw [mapError_eq_ok, position_eq_ok]
      exact ⟨fun exactly => ⟨hh, hp, exactly⟩, fun h => h.2.2⟩
    · rename_i outside
      exact ⟨nofun, fun h => absurd h.2.1 outside⟩
  · rename_i outside
    exact ⟨nofun, fun h => absurd h.1 outside⟩

/-- **The keypair of a container is at `host * perHost + place`.** -/
theorem index_eq (fits : l.containers < UInt64.size) {host place : Nat}
    (hh : host < l.hosts.toNat) (hp : place < l.perHost.toNat) :
    l.index (UInt64.ofNat host) (UInt64.ofNat place) =
      .ok (UInt64.ofNat (host * l.perHost.toNat + place)) := by
  have host_eq : (UInt64.ofNat host).toNat = host :=
    UInt64.toNat_ofNat_of_lt' (Nat.lt_trans hh l.hosts.toNat_lt)
  have place_eq : (UInt64.ofNat place).toNat = place :=
    UInt64.toNat_ofNat_of_lt' (Nat.lt_trans hp l.perHost.toNat_lt)
  have host_lt : UInt64.ofNat host < l.hosts := by
    rw [UInt64.lt_iff_toNat_lt, host_eq]
    exact hh
  have place_lt : UInt64.ofNat place < l.perHost := by
    rw [UInt64.lt_iff_toNat_lt, place_eq]
    exact hp
  have small : host * l.perHost.toNat + place < UInt64.size :=
    Nat.lt_trans (position_lt hh hp) fits
  rw [index_of_lt host_lt place_lt]
  refine mapError_eq_ok.2 (position_eq_ok.2 ?_)
  rw [UInt64.toNat_ofNat_of_lt' small, host_eq, place_eq]

end KeyLayout

namespace PhasePlan

variable {hosts : List String} {compose : ComposeFile} {keystore : Keystore} {perHost : UInt64}
  {phase : PhasePlan}

/-- The containers of a phase can be counted in a word. -/
theorem containers_lt (phase : PhasePlan) : phase.layout.containers < UInt64.size := by
  obtain ⟨n, hn⟩ := phase.sized
  exact KeyLayout.capacity_eq_ok.1 hn ▸ n.toNat_lt

/-- What a phase that was made is made of. -/
theorem of_make (h : make hosts compose keystore perHost = .ok phase) :
    phase.hosts = hosts ∧ phase.compose = compose ∧ phase.keystore = keystore ∧
      phase.layout.hosts = UInt64.ofNat hosts.length ∧ phase.layout.perHost = perHost ∧
      phase.layout.containers ≤ keystore.size := by
  unfold make KeyLayout.make at h
  split at h
  · cases h
  · rename_i layout hl
    split at hl
    · obtain rfl := Except.ok.inj hl
      split at h
      · cases h
      · rename_i capacity counted
        split at h
        · cases h
        · rename_i enough
          obtain rfl := Except.ok.inj h
          refine ⟨rfl, rfl, rfl, rfl, rfl, ?_⟩
          rw [← KeyLayout.capacity_eq_ok.1 counted]
          exact Nat.le_of_not_lt enough
    · cases hl

/-- The hosts of a phase that was made are no more than its containers, so they can be counted. -/
theorem few_of_make (h : make hosts compose keystore perHost = .ok phase)
    (fits : hosts.length * perHost.toNat < UInt64.size) : hosts.length < UInt64.size := by
  obtain ⟨-, -, -, -, rfl, -⟩ := of_make h
  have pos := KeyLayout.perHost_pos.2 phase.layout.perHost_ne_zero
  exact Nat.lt_of_le_of_lt (Nat.le_mul_of_pos_right _ pos) fits

/-- The layout of a phase that was made has as many hosts as the phase. -/
theorem toNat_hosts_of_make (h : make hosts compose keystore perHost = .ok phase)
    (few : hosts.length < UInt64.size) : phase.layout.hosts.toNat = hosts.length := by
  obtain ⟨-, -, -, count, -⟩ := of_make h
  rw [count, UInt64.toNat_ofNat_of_lt' few]

/-- **A phase that was made has a keypair for every container**, and its containers can be
counted in a word. -/
theorem le_size_of_make (h : make hosts compose keystore perHost = .ok phase)
    (few : hosts.length < UInt64.size) :
    hosts.length * perHost.toNat ≤ keystore.size ∧
      hosts.length * perHost.toNat < UInt64.size := by
  have count := toNat_hosts_of_make h few
  obtain ⟨-, -, -, -, rfl, enough⟩ := of_make h
  rw [← count]
  exact ⟨enough, phase.containers_lt⟩

/-- The layout for so many hosts has as many containers as there are on all hosts. -/
theorem containers_mk (few : hosts.length < UInt64.size) (nonzero : perHost ≠ 0) :
    (KeyLayout.mk (UInt64.ofNat hosts.length) perHost nonzero).containers =
      hosts.length * perHost.toNat := by
  rw [KeyLayout.containers, UInt64.toNat_ofNat_of_lt' few]

/-- **A phase is made** when it has containers, they can be counted in a word, and there is a
keypair for each of them. -/
theorem exists_make_iff (few : hosts.length < UInt64.size) :
    (∃ phase, make hosts compose keystore perHost = .ok phase) ↔
      perHost ≠ 0 ∧ hosts.length * perHost.toNat < UInt64.size ∧
        hosts.length * perHost.toNat ≤ keystore.size := by
  constructor
  · rintro ⟨phase, h⟩
    obtain ⟨enough, fits⟩ := le_size_of_make h few
    obtain ⟨-, -, -, -, hper, -⟩ := of_make h
    exact ⟨hper ▸ phase.layout.perHost_ne_zero, fits, enough⟩
  · rintro ⟨nonzero, fits, enough⟩
    have containers := containers_mk few nonzero
    have counted := KeyLayout.capacity_eq (by rwa [containers])
    refine ⟨⟨hosts, compose, keystore, ⟨UInt64.ofNat hosts.length, perHost, nonzero⟩, _, counted⟩,
      ?_⟩
    rw [make, KeyLayout.make, dif_pos nonzero]
    dsimp only
    split
    · rename_i o overflow
      rw [counted] at overflow
      cases overflow
    · rename_i capacity exactly
      rw [if_neg (by rw [KeyLayout.capacity_eq_ok.1 exactly, containers]; omega)]

/-- **Making a phase overflows** when it has containers that cannot be counted in a word. -/
theorem make_eq_overflow_iff (few : hosts.length < UInt64.size) {o : Overflow} :
    make hosts compose keystore perHost = .error (.overflow o) ↔
      perHost ≠ 0 ∧ UInt64.size ≤ hosts.length * perHost.toNat ∧ o = .multiply := by
  by_cases zero : perHost = 0
  · simp [make, KeyLayout.make, zero]
  · have containers := containers_mk few zero
    rw [make, KeyLayout.make, dif_pos zero]
    dsimp only
    split
    · rename_i o' overflow
      obtain ⟨large, rfl⟩ := wordOf_eq_error.1 overflow
      rw [containers] at large
      simp [zero, large, eq_comm]
    · rename_i capacity exactly
      have small : hosts.length * perHost.toNat < UInt64.size := by
        rw [← containers, ← KeyLayout.capacity_eq_ok.1 exactly]
        exact capacity.toNat_lt
      have none : ¬ UInt64.size ≤ hosts.length * perHost.toNat := Nat.not_le.2 small
      split <;> simp [none]

/-- **Every container of a phase has a keypair.** -/
theorem keypairOf_eq (h : make hosts compose keystore perHost = .ok phase)
    (fits : hosts.length * perHost.toNat < UInt64.size) {position place : Nat}
    (hh : position < hosts.length) (hp : place < perHost.toNat) (host container : String) :
    ∃ key, keystore.get? (position * perHost.toNat + place) = some key ∧
      phase.keypairOf (UInt64.ofNat position) host place container =
        .ok (UInt64.ofNat (position * perHost.toNat + place), key) := by
  have few := few_of_make h fits
  have hosts_eq := toNat_hosts_of_make h few
  have enough := (le_size_of_make h few).1
  obtain ⟨-, -, hkeystore, -, rfl, -⟩ := of_make h
  have lt := KeyLayout.position_lt hh hp
  have hget : position * phase.layout.perHost.toNat + place < keystore.keypairs.length :=
    Nat.lt_of_lt_of_le lt enough
  refine ⟨_, List.getElem?_eq_getElem hget, ?_⟩
  rw [keypairOf,
    index_eq_ok.2 (KeyLayout.index_eq phase.containers_lt (hosts_eq.symm ▸ hh) hp)]
  dsimp only
  rw [UInt64.toNat_ofNat_of_lt' (Nat.lt_trans lt fits), hkeystore, Keystore.keypair,
    Keystore.get?, List.getElem?_eq_getElem hget]

end PhasePlan
end Rollout
