/-
# The characters of an Internet address

| a text that reads as | has |
| --- | --- |
| an IPv4 address | digits and full stops |
| an IPv6 address | hexadecimal digits, full stops and colons, and a colon at least |

Reading takes characters of these kinds from the start of a text (`Takes`). An
address that no colon is in has two groups at most, so it is no IPv6 address.
-/

import Rollout.Address.Ip
import Mathlib.Tactic.SplitIfs

namespace Rollout
namespace Address

open Text (isHex)

/-- A character that an IPv4 address may have. -/
def isOctetChar (c : Char) : Bool :=
  c.isDigit || c == '.'

/-- A character that an IPv6 address may have. -/
def isGroupChar (c : Char) : Bool :=
  isHex c || c == '.' || c == ':'

/-- What is left of a text, once characters of one kind are taken from its start. -/
def Takes (p : Char → Bool) (cs rest : List Char) : Prop :=
  ∃ front, cs = front ++ rest ∧ ∀ c ∈ front, p c = true

namespace Takes

variable {p q : Char → Bool} {cs rest rest' : List Char}

/-- A reader that takes nothing leaves the text. -/
theorem refl (cs : List Char) : Takes p cs cs :=
  ⟨[], rfl, nofun⟩

/-- What two readers take one after the other is taken from the first text. -/
theorem trans (h : Takes p cs rest) (h' : Takes p rest rest') : Takes p cs rest' := by
  obtain ⟨front, rfl, all⟩ := h
  obtain ⟨more, rfl, others⟩ := h'
  exact ⟨front ++ more, (List.append_assoc ..).symm, List.forall_mem_append.2 ⟨all, others⟩⟩

theorem cons {c : Char} (hc : p c = true) (h : Takes p cs rest) : Takes p (c :: cs) rest :=
  trans ⟨[c], rfl, by simpa using hc⟩ h

/-- The characters taken are also of every larger kind. -/
theorem mono (imp : ∀ c, p c = true → q c = true) (h : Takes p cs rest) : Takes q cs rest := by
  obtain ⟨front, rfl, all⟩ := h
  exact ⟨front, rfl, fun c hc => imp c (all c hc)⟩

/-- What a scan for a kind of character drops is of that kind. -/
theorem dropWhile (cs : List Char) : Takes p cs (cs.dropWhile p) :=
  ⟨cs.takeWhile p, List.takeWhile_append_dropWhile.symm, List.all_eq_true.1 List.all_takeWhile⟩

/-- A text that is taken as a whole has no other characters. -/
theorem forall_of_nil (h : Takes p cs []) : ∀ c ∈ cs, p c = true := by
  obtain ⟨front, rfl, all⟩ := h
  rwa [List.append_nil]

/-- A character of what is left is one of the whole text. -/
theorem mem {c : Char} (h : Takes p cs rest) (hc : c ∈ rest) : c ∈ cs := by
  obtain ⟨front, rfl, -⟩ := h
  exact List.mem_append_right front hc

end Takes

/-! ### IPv4 addresses -/

variable {cs rest : List Char}

/-- An octet is read from digits and nothing else. -/
theorem takes_readOctet? {n : Fin 256} (h : readOctet? cs = some (n, rest)) :
    Takes isOctetChar cs rest := by
  unfold readOctet? at h
  dsimp only at h
  split_ifs at h
  obtain ⟨-, rfl⟩ := Prod.mk.inj (Option.some.inj h)
  exact (Takes.dropWhile cs).mono fun c hc => by rw [isOctetChar, hc, Bool.true_or]

/-- An octet behind a dot is read from a dot and digits. -/
theorem takes_readNextOctet? {n : Fin 256} (h : readNextOctet? cs = some (n, rest)) :
    Takes isOctetChar cs rest := by
  unfold readNextOctet? at h
  split at h
  · exact .cons rfl (takes_readOctet? h)
  · cases h

/-- An address of four octets is read from digits and dots. -/
theorem takes_readIpv4? {ip : Ipv4} (h : readIpv4? cs = some (ip, rest)) :
    Takes isOctetChar cs rest := by
  simp only [readIpv4?, Option.bind_eq_bind, Option.bind_eq_some_iff, Prod.exists] at h
  obtain ⟨a, _, ha, b, _, hb, c, _, hc, d, _, hd, h⟩ := h
  obtain ⟨-, rfl⟩ := Prod.mk.inj (Option.some.inj h)
  exact (takes_readOctet? ha).trans ((takes_readNextOctet? hb).trans
    ((takes_readNextOctet? hc).trans (takes_readNextOctet? hd)))

/-- **An IPv4 address has digits and full stops.** -/
theorem isOctetChar_of_read? {ip : Ipv4} (h : Ipv4.read? cs = some ip) :
    ∀ c ∈ cs, isOctetChar c = true := by
  unfold Ipv4.read? at h
  split at h
  · rename_i ip' heq
    exact (takes_readIpv4? heq).forall_of_nil
  · cases h

/-! ### IPv6 addresses -/

/-- A decimal digit is a hexadecimal one. -/
theorem isHex_of_isDigit {c : Char} (h : c.isDigit = true) : isHex c = true := by
  have bounds : '0' ≤ c ∧ c ≤ '9' := by
    rw [Char.isDigit, Bool.and_eq_true, decide_eq_true_iff, decide_eq_true_iff] at h
    exact h
  rw [isHex, Text.hexValue?, if_pos bounds]
  rfl

/-- What an address of octets is made of may stand among groups too. -/
theorem isGroupChar_of_isOctetChar {c : Char} (h : isOctetChar c = true) :
    isGroupChar c = true := by
  rw [isOctetChar, Bool.or_eq_true] at h
  rcases h with digit | dot
  · rw [isGroupChar, isHex_of_isDigit digit]
    rfl
  · rw [isGroupChar, dot, Bool.or_true]
    rfl

/-- A group is read from hexadecimal digits. -/
theorem takes_readGroup? {g : Group} (h : readGroup? cs = some (g, rest)) :
    Takes isGroupChar cs rest := by
  unfold readGroup? at h
  dsimp only at h
  split_ifs at h
  obtain ⟨-, rfl⟩ := Prod.mk.inj (Option.some.inj h)
  exact (Takes.dropWhile cs).mono fun c hc => by simp [isGroupChar, hc]

/-- Between two groups there is a colon, and before the first there is nothing. -/
theorem takes_groupStart? {first : Bool} (h : groupStart? first cs = some rest) :
    Takes isGroupChar cs rest := by
  unfold groupStart? at h
  split_ifs at h
  · obtain rfl := Option.some.inj h
    exact .refl _
  · split at h
    · obtain rfl := Option.some.inj h
      exact .cons rfl (.refl _)
    · cases h

/-- Groups, with an address of octets at their end or without one, are read from the characters of
groups. -/
theorem takes_readGroups (first : Bool) (room : Nat) (cs : List Char) :
    Takes isGroupChar cs (readGroups first room cs).rest := by
  fun_induction readGroups first room cs with
  | case1 => exact .refl _
  | case2 => exact .refl _
  | case3 first cs room body start ip rest hip =>
    have octets : readIpv4? body = some (ip, rest) := by
      split_ifs at hip
      exact hip
    exact (takes_groupStart? start).trans
      ((takes_readIpv4? octets).mono fun _ => isGroupChar_of_isOctetChar)
  | case4 first cs room body start _ g rest hg run ih =>
    exact (takes_groupStart? start).trans ((takes_readGroup? hg).trans ih)
  | case5 => exact .refl _

/-- Without a colon there is one group, or an IPv4 address in place of two. -/
theorem length_readGroups_le (colonless : ':' ∉ cs) (room : Nat) :
    (readGroups true room cs).groups.length ≤ 2 := by
  have others : ∀ {rest : List Char} {room : Nat}, ':' ∉ rest →
      (readGroups false room rest).groups = [] := by
    intro rest room free
    have start : groupStart? false rest = none := by
      unfold groupStart?
      split
      · cases ‹false = true›
      · split
        · exact absurd List.mem_cons_self free
        · rfl
    cases room with
    | zero => rfl
    | succ room => rw [readGroups, start]
  cases room with
  | zero => exact Nat.zero_le _
  | succ room =>
    rw [readGroups, show groupStart? true cs = some cs from rfl]
    dsimp only
    split
    · exact Nat.le_refl 2
    · split
      · rename_i g rest hg
        have free : ':' ∉ rest := fun hc => colonless ((takes_readGroup? hg).mem hc)
        simp [others free]
      · exact Nat.zero_le _

/-- **An IPv6 address has hexadecimal digits, full stops and colons.** -/
theorem isGroupChar_of_read? {ip : Ipv6} (h : Ipv6.read? cs = some ip) :
    ∀ c ∈ cs, isGroupChar c = true := by
  have head := takes_readGroups true 8 cs
  unfold Ipv6.read? at h
  dsimp only at h
  split_ifs at h with whole ended mapped
  · rw [List.isEmpty_iff.1 ended] at head
    exact head.forall_of_nil
  · split at h
    · rename_i tail hrest
      rw [hrest] at head
      split_ifs at h with ended
      have back := takes_readGroups true (7 - (readGroups true 8 cs).groups.length) tail
      rw [List.isEmpty_iff.1 ended] at back
      exact (head.trans (.cons rfl (.cons rfl back))).forall_of_nil
    · cases h

/-- **An IPv6 address has a colon.** -/
theorem colon_mem_of_read? {ip : Ipv6} (h : Ipv6.read? cs = some ip) : ':' ∈ cs := by
  have head := takes_readGroups true 8 cs
  refine Decidable.byContradiction fun colonless => ?_
  have few := length_readGroups_le colonless 8
  unfold Ipv6.read? at h
  dsimp only at h
  rw [if_neg (by omega)] at h
  split_ifs at h
  split at h
  · rename_i tail hrest
    rw [hrest] at head
    exact colonless (head.mem List.mem_cons_self)
  · cases h

/-! ### Which of both an address is -/

/-- An address of octets that a text is read as is one that the reader of octets gives. -/
theorem Ip.read?_eq_v4 {cs : List Char} {ip : Ipv4} (h : Ip.read? cs = some (.v4 ip)) :
    Ipv4.read? cs = some ip := by
  unfold Ip.read? at h
  split at h
  · rename_i ip' h'
    obtain rfl : ip' = ip := by simpa using h
    exact h'
  · obtain ⟨_, -, other⟩ := Option.map_eq_some_iff.1 h
    cases other

/-- An address of groups that a text is read as is one that the reader of groups gives. -/
theorem Ip.read?_eq_v6 {cs : List Char} {ip : Ipv6} (h : Ip.read? cs = some (.v6 ip)) :
    Ipv6.read? cs = some ip := by
  unfold Ip.read? at h
  split at h
  · cases Option.some.inj h
  · obtain ⟨ip', h', same⟩ := Option.map_eq_some_iff.1 h
    obtain rfl : ip' = ip := by simpa using same
    exact h'

end Address
end Rollout
