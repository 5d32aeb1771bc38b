/-
# Written addresses

The written form of an Internet address is made of digits, full stops and colons.
A host that is no such address is written as it is, so an address has a blank
exactly where its host has one.

Main statement: `Multiaddr.unbroken_network`.
-/

import Rollout.Address.Multiaddr
import Rollout.Proofs.Text.Lines
import Mathlib.Tactic.SplitIfs

namespace Rollout

open Text

namespace Address

theorem isBlank_digitChar {n : Nat} (h : n < 16) : isBlank (Nat.digitChar n) = false := by
  have digits : ∀ m : Fin 16, isBlank (Nat.digitChar m) = false := by decide
  exact digits ⟨n, h⟩

/-- An octet is written without blanks. -/
theorem unbroken_octetText (n : Fin 256) : Unbroken (octetText n) := by
  have hundreds := isBlank_digitChar (n := n / 100) (by omega)
  have tens := isBlank_digitChar (n := n / 10 % 10) (by omega)
  have ones := isBlank_digitChar (n := n % 10) (by omega)
  unfold octetText
  split_ifs with small medium
  · rw [Nat.mod_eq_of_lt small] at ones
    simp [Unbroken, ones]
  · rw [Nat.mod_eq_of_lt (a := n / 10) (by omega)] at tens
    simp [Unbroken, tens, ones]
  · simp [Unbroken, hundreds, tens, ones]

/-- A group is written without blanks. -/
theorem unbroken_groupText (g : Group) : Unbroken (groupText g) := by
  have digit (place : Nat) := isBlank_digitChar (n := g.val / place % 16) (Nat.mod_lt _ (by decide))
  unfold groupText
  split_ifs <;> simp only [Unbroken, List.forall_mem_cons, digit, List.not_mem_nil,
    false_implies, implies_true, and_self]

/-- An address of octets is written without blanks. -/
theorem Ipv4.unbroken_text (ip : Ipv4) : Unbroken ip.text := by
  have dot : isBlank '.' = false := rfl
  simp [text, unbroken_append, unbroken_cons, unbroken_octetText, dot]

/-- Groups are written without blanks. -/
theorem unbroken_groupsText : ∀ gs : List Group, Unbroken (groupsText gs)
  | [] => List.forall_mem_nil _
  | [g] => unbroken_groupText g
  | g :: h :: gs => by
    have colon : isBlank ':' = false := rfl
    have others := unbroken_groupsText (h :: gs)
    exact unbroken_append.2 ⟨unbroken_groupText g, unbroken_cons.2 ⟨colon, others⟩⟩

/-- An address of groups whose zeros are left out is written without blanks. -/
theorem unbroken_compressed (n : Nat) (seen gs : List Group) : Unbroken (compressed n seen gs) := by
  have colon : isBlank ':' = false := rfl
  induction gs generalizing seen with
  | nil => exact unbroken_groupsText seen
  | cons g gs ih =>
    rw [compressed]
    split_ifs
    · simp [unbroken_append, unbroken_cons, unbroken_groupsText, colon]
    · exact ih _

/-- An address of groups is written without blanks. -/
theorem Ipv6.unbroken_text (ip : Ipv6) : Unbroken ip.text := by
  unfold text
  split
  · exact unbroken_append.2 ⟨by decide, Ipv4.unbroken_text _⟩
  · dsimp only
    split_ifs
    · exact unbroken_groupsText _
    · exact unbroken_compressed _ _ _

end Address

/-- **An address has no blank** if its host has none. -/
theorem Multiaddr.unbroken_network {host : String} (h : Unbroken host.toList) :
    Unbroken (network host).toList := by
  have v4 : Unbroken "/ip4/".toList := by decide
  have v6 : Unbroken "/ip6/".toList := by decide
  have name : Unbroken "/dns4/".toList := by decide
  unfold network
  split
  all_goals rw [String.toList_append, unbroken_append]
  · rename_i ip _
    exact ⟨v4, String.toList_ofList ▸ ip.unbroken_text⟩
  · rename_i ip _
    exact ⟨v6, String.toList_ofList ▸ ip.unbroken_text⟩
  · exact ⟨name, h⟩

end Rollout
