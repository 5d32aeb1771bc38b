/-
# Written addresses are read back

An Internet address is written in one form, and that form is read as the address:

| written | read as |
| --- | --- |
| the digits of an octet or a group | its number, up to a character that is no digit |
| octets with full stops between them | an IPv4 address |
| groups with colons between them | the groups, up to the end or two colons |
| two colons | as many zero groups as are missing |

An IPv4 address is tried in place of every two groups that have room, and in place
of the whole. Its first octet would end at a full stop, and no digit of a group and
nothing after a group is one (`readIpv4?_groupsText`).

Main statement: `Address.Ip.read?_text`. So addresses that are written alike are the
same (`Address.Ip.text_injective`).
-/

import Rollout.Address.Ip
import Mathlib.Tactic.SplitIfs

namespace Rollout
namespace Address

open Text (hexValue? isHex digitsValue)

/-! ### Digits -/

/-- The text is at its end, or goes on with another character. -/
def StopsAt (p : Char → Bool) (rest : List Char) : Prop :=
  ∀ c, rest.head? = some c → p c = false

section

variable {p : Char → Bool} {ds rest : List Char}

/-- A scan takes all before the character that stops it. -/
theorem takeWhile_append_of_stopsAt (all : ∀ c ∈ ds, p c = true) (stops : StopsAt p rest) :
    (ds ++ rest).takeWhile p = ds := by
  rw [List.takeWhile_append_of_pos all]
  cases rest with
  | nil => exact List.append_nil ds
  | cons c rest => rw [List.takeWhile_cons_of_neg (by simp [stops c rfl]), List.append_nil]

/-- A scan leaves what starts with the character that stops it. -/
theorem dropWhile_append_of_stopsAt (all : ∀ c ∈ ds, p c = true) (stops : StopsAt p rest) :
    (ds ++ rest).dropWhile p = rest := by
  rw [List.dropWhile_append_of_pos all]
  cases rest with
  | nil => rfl
  | cons c rest => exact List.dropWhile_cons_of_neg (by simp [stops c rfl])

end

/-- The value of the character of a digit is the digit. -/
theorem hexValue?_digitChar {n : Nat} (h : n < 16) : hexValue? (Nat.digitChar n) = some n := by
  have digits : ∀ m : Fin 16, hexValue? (Nat.digitChar m) = some m.val := by decide
  exact digits ⟨n, h⟩

theorem isHex_digitChar {n : Nat} (h : n < 16) : isHex (Nat.digitChar n) = true := by
  rw [isHex, hexValue?_digitChar h]
  rfl

/-! ### Octets -/

/-- A text that starts with a digit other than zero is the shortest for its number. -/
theorem isShortest_digitChar_cons {n : Nat} (pos : 0 < n) (h : n < 10) (ds : List Char) :
    isShortest (Nat.digitChar n :: ds) = true := by
  have digits : ∀ m : Fin 10, m.val ≠ 0 → Nat.digitChar m ≠ '0' := by decide
  have other := digits ⟨n, h⟩ (Nat.ne_of_gt pos)
  unfold isShortest
  split
  · rename_i same
    exact absurd (List.cons.inj same).1 other
  · rfl

/-- The digits of an octet are one to three, without a leading zero. -/
theorem octetText_spec (n : Fin 256) : (∀ c ∈ octetText n, c.isDigit = true) ∧
    digitsValue 10 (octetText n) = n.val ∧ 1 ≤ (octetText n).length ∧
    (octetText n).length ≤ 3 ∧ isShortest (octetText n) = true := by
  have lt := n.isLt
  have value : ∀ m < 10, hexValue? (Nat.digitChar m) = some m :=
    fun m h => hexValue?_digitChar (by omega)
  unfold octetText
  split_ifs with one two
  · simp [digitsValue, value n one, one, isShortest]
  · simp (disch := omega) [digitsValue, value, isShortest_digitChar_cons]
    omega
  · simp (disch := omega) [digitsValue, value, isShortest_digitChar_cons]
    omega

/-- **An octet is read back**, whatever comes behind it that is no digit. -/
theorem readOctet?_octetText (n : Fin 256) {rest : List Char} (stops : StopsAt Char.isDigit rest) :
    readOctet? (octetText n ++ rest) = some (n, rest) := by
  obtain ⟨digits, value, one, three, shortest⟩ := octetText_spec n
  simp [readOctet?, takeWhile_append_of_stopsAt digits stops,
    dropWhile_append_of_stopsAt digits stops, value, one, three, shortest]

theorem stopsAt_dot (rest : List Char) : StopsAt Char.isDigit ('.' :: rest) := by
  intro c hc
  obtain rfl : '.' = c := by simpa using hc
  rfl

/-- **An IPv4 address is read back**, up to a character that is no digit. -/
theorem readIpv4?_text (ip : Ipv4) {rest : List Char} (stops : StopsAt Char.isDigit rest) :
    readIpv4? (ip.text ++ rest) = some (ip, rest) := by
  simp [readIpv4?, Ipv4.text, readNextOctet?, readOctet?_octetText, stopsAt_dot, stops]

/-- The text of an address of octets is read to its end. -/
theorem Ipv4.readIpv4?_text (ip : Ipv4) : readIpv4? ip.text = some (ip, []) := by
  have back := Address.readIpv4?_text ip (nofun : StopsAt Char.isDigit [])
  rwa [List.append_nil] at back

/-- **An address of octets is read back** from its text. -/
theorem Ipv4.read?_text (ip : Ipv4) : read? ip.text = some ip := by
  rw [read?, ip.readIpv4?_text]

/-! ### Groups -/

/-- The text of a group has one to four hexadecimal digits, and their value is the group. -/
theorem groupText_spec (g : Group) : (∀ c ∈ groupText g, isHex c = true) ∧
    digitsValue 16 (groupText g) = g.val ∧ 1 ≤ (groupText g).length ∧
    (groupText g).length ≤ 4 := by
  have lt := g.isLt
  have hex : ∀ place, isHex (Nat.digitChar (g.val / place % 16)) = true :=
    fun _ => isHex_digitChar (Nat.mod_lt _ (by decide))
  have value : ∀ place,
      hexValue? (Nat.digitChar (g.val / place % 16)) = some (g.val / place % 16) :=
    fun _ => hexValue?_digitChar (Nat.mod_lt _ (by decide))
  unfold groupText
  split_ifs <;> simp only [List.forall_mem_cons, List.not_mem_nil, false_implies, implies_true,
    hex, and_self, digitsValue, List.foldl_cons, List.foldl_nil, value, Option.getD_some,
    List.length_cons, List.length_nil, true_and] <;> omega

/-- No group can begin in the middle of this text: it is at its end, or goes on with a
colon. -/
def EndsGroup (rest : List Char) : Prop :=
  ∀ c, rest.head? = some c → c = ':'

section

variable {rest : List Char}

theorem EndsGroup.nil : EndsGroup [] :=
  fun _ hc => by cases hc

theorem EndsGroup.colon (rest : List Char) : EndsGroup (':' :: rest) :=
  fun _ hc => (Option.some.inj hc).symm

/-- What ends a group stops the scan for its digits. -/
theorem EndsGroup.stopsAt (h : EndsGroup rest) : StopsAt isHex rest := by
  intro c hc
  rw [h c hc]
  decide

/-- **A group is read back**, whatever comes behind it that ends a group. -/
theorem readGroup?_groupText (g : Group) (ends : EndsGroup rest) :
    readGroup? (groupText g ++ rest) = some (g, rest) := by
  obtain ⟨digits, value, one, four⟩ := groupText_spec g
  simp [readGroup?, takeWhile_append_of_stopsAt digits ends.stopsAt,
    dropWhile_append_of_stopsAt digits ends.stopsAt, value, one, four]

/-- What ends a group starts none. -/
theorem readGroup?_of_endsGroup (ends : EndsGroup rest) : readGroup? rest = none := by
  have none : ([] ++ rest).takeWhile isHex = [] := takeWhile_append_of_stopsAt nofun ends.stopsAt
  rw [List.nil_append] at none
  simp [readGroup?, none]

/-! ### Groups are no IPv4 address -/

/-- Where no dot follows the first digits, there is no address of octets. -/
theorem readIpv4?_of_head {cs : List Char} (h : (cs.dropWhile Char.isDigit).head? ≠ some '.') :
    readIpv4? cs = none := by
  have next : readNextOctet? (cs.dropWhile Char.isDigit) = none := by
    unfold readNextOctet?
    split
    · rename_i heq
      rw [heq] at h
      exact absurd rfl h
    · rfl
  unfold readIpv4? readOctet?
  dsimp only
  split_ifs <;> simp [next]

/-- Behind the decimal digits that a group starts with there is no dot: the group goes on, or it
ends. -/
theorem head?_dropWhile_ne_dot (ends : EndsGroup rest) :
    ∀ {ds : List Char}, (∀ c ∈ ds, isHex c = true) →
      ((ds ++ rest).dropWhile Char.isDigit).head? ≠ some '.'
  | [], _ => by
    cases rest with
    | nil => simp
    | cons c rest =>
      obtain rfl := ends c rfl
      simp [Char.isDigit]
  | d :: ds, hex => by
    rw [List.cons_append, List.dropWhile_cons]
    split_ifs
    · exact head?_dropWhile_ne_dot ends fun c hc => hex c (List.mem_cons_of_mem d hc)
    · rintro ⟨⟩
      exact absurd (hex '.' List.mem_cons_self) (by decide)

/-- A group is not mistaken for the first octet of an address. -/
theorem readIpv4?_groupText (g : Group) (ends : EndsGroup rest) :
    readIpv4? (groupText g ++ rest) = none :=
  readIpv4?_of_head (head?_dropWhile_ne_dot ends (groupText_spec g).1)

theorem readIpv4?_of_endsGroup (ends : EndsGroup rest) : readIpv4? rest = none := by
  have head : (([] ++ rest).dropWhile Char.isDigit).head? ≠ some '.' :=
    head?_dropWhile_ne_dot ends nofun
  exact readIpv4?_of_head head

/-! ### Rows of groups -/

/-- A colon stands before each group but the first. -/
theorem groupsText_cons (g : Group) (gs : List Group) :
    groupsText (g :: gs) = groupText g ++ gs.flatMap fun h => ':' :: groupText h := by
  induction gs generalizing g with
  | nil => simp [groupsText]
  | cons h gs ih =>
    rw [groupsText, ih, List.flatMap_cons, List.cons_append]
    simp

/-- Further groups end the one before them. -/
theorem endsGroup_others (gs : List Group) (ends : EndsGroup rest) :
    EndsGroup ((gs.flatMap fun h => ':' :: groupText h) ++ rest) := by
  cases gs with
  | nil => exact ends
  | cons h gs => exact .colon _

/-- The groups of an address are not mistaken for an address of octets. -/
theorem readIpv4?_groupsText (gs : List Group) (ends : EndsGroup rest) :
    readIpv4? (groupsText gs ++ rest) = none := by
  cases gs with
  | nil => exact readIpv4?_of_endsGroup ends
  | cons g gs =>
    rw [groupsText_cons, List.append_assoc]
    exact readIpv4?_groupText g (endsGroup_others gs ends)

/-- No group follows: the text is at its end, or goes on with two colons. -/
def EndsGroups (rest : List Char) : Prop :=
  rest = [] ∨ ∃ more, rest = ':' :: ':' :: more

theorem EndsGroups.endsGroup (h : EndsGroups rest) : EndsGroup rest := by
  obtain rfl | ⟨more, rfl⟩ := h
  · exact .nil
  · exact .colon _

/-- Behind what ends the groups no further group is read. -/
theorem readGroups_of_endsGroups (first : Bool) (room : Nat) (h : EndsGroups rest) :
    readGroups first room rest = ⟨[], false, rest⟩ := by
  cases room with
  | zero => rfl
  | succ room =>
    -- The next group would start at the end or at a colon.
    have start : ∀ body, groupStart? first rest = some body → EndsGroup body := by
      intro body hbody
      obtain rfl | ⟨more, rfl⟩ := h <;> cases first <;> cases hbody
      · exact .nil
      · exact .colon _
      · exact .colon _
    rw [readGroups]
    split
    · rfl
    · rename_i body hbody
      simp [readIpv4?_of_endsGroup (start body hbody), readGroup?_of_endsGroup (start body hbody)]

/-- Reading groups takes the first one and goes on behind it. -/
theorem readGroups_groupText (first : Bool) (room : Nat) {cs : List Char} {g : Group}
    (start : groupStart? first cs = some (groupText g ++ rest)) (ends : EndsGroup rest) :
    readGroups first (room + 1) cs =
      ⟨g :: (readGroups false room rest).groups, (readGroups false room rest).endsInIpv4,
        (readGroups false room rest).rest⟩ := by
  rw [readGroups]
  simp [start, readIpv4?_groupText g ends, readGroup?_groupText g ends]

/-- Further groups are read back as long as there is room for them. -/
theorem readGroups_others {gs : List Group} {room : Nat} (fits : gs.length ≤ room)
    (ends : EndsGroups rest) :
    readGroups false room ((gs.flatMap fun h => ':' :: groupText h) ++ rest) =
      ⟨gs, false, rest⟩ := by
  induction gs generalizing room with
  | nil => exact readGroups_of_endsGroups false room ends
  | cons g gs ih =>
    obtain ⟨room, rfl⟩ : ∃ n, room = n + 1 := ⟨room - 1, by simp at fits; omega⟩
    have others := ih (show gs.length ≤ room by simpa using fits)
    rw [List.flatMap_cons, List.append_assoc, List.cons_append,
      readGroups_groupText false room rfl (endsGroup_others gs ends.endsGroup), others]

/-- **Groups are read back** if there is room for them. -/
theorem readGroups_groupsText {gs : List Group} {room : Nat} (fits : gs.length ≤ room)
    (ends : EndsGroups rest) :
    readGroups true room (groupsText gs ++ rest) = ⟨gs, false, rest⟩ := by
  cases gs with
  | nil => exact readGroups_of_endsGroups true room ends
  | cons g gs =>
    obtain ⟨room, rfl⟩ : ∃ n, room = n + 1 := ⟨room - 1, by simp at fits; omega⟩
    rw [groupsText_cons, List.append_assoc, readGroups_groupText true room rfl
      (endsGroup_others gs ends.endsGroup), readGroups_others (by simpa using fits) ends]

end

/-- **Groups are read back** as long as there is room for them. -/
theorem readGroups_whole {gs : List Group} {room : Nat} (fits : gs.length ≤ room) :
    readGroups true room (groupsText gs) = ⟨gs, false, []⟩ := by
  have back := readGroups_groupsText fits (.inl rfl)
  rwa [List.append_nil] at back

/-! ### Zero groups -/

/-- The leading zeros are all zero. -/
theorem take_leadingZeros (gs : List Group) :
    gs.take (leadingZeros gs) = List.replicate (leadingZeros gs) 0 := by
  refine List.eq_replicate_iff.2 ⟨?_, fun g hg => ?_⟩
  · exact List.length_take_of_le (List.takeWhile_sublist _).length_le
  · rw [leadingZeros, ← List.prefix_iff_eq_take.1 (List.takeWhile_prefix _)] at hg
    simpa using List.all_eq_true.1 List.all_takeWhile g hg

/-- **The longest run of zero groups** is the one that is written as two colons. -/
theorem exists_compressed {n : Nat} (pos : 0 < n) (seen : List Group) {gs : List Group}
    (h : longestZeros gs = n) :
    ∃ before after, gs = before ++ List.replicate n 0 ++ after ∧
      compressed n seen gs = groupsText (seen ++ before) ++ ':' :: ':' :: groupsText after := by
  induction gs generalizing seen with
  | nil =>
    rw [longestZeros] at h
    omega
  | cons g gs ih =>
    rw [compressed]
    split_ifs with first
    · refine ⟨[], (g :: gs).drop n, ?_, by rw [List.append_nil]⟩
      rw [List.nil_append, ← first, ← take_leadingZeros, List.take_append_drop]
    · rw [longestZeros] at h
      obtain ⟨before, after, split, text⟩ := ih (seen ++ [g]) (by omega)
      exact ⟨g :: before, after, by rw [split]; rfl, by rw [text, List.append_assoc]; rfl⟩

/-! ### Addresses -/

/-- Eight groups are the address that they are taken from. -/
theorem Ipv6.ofGroups?_groups (ip : Ipv6) : ofGroups? ip.groups = some ip :=
  dif_pos ip.length_eq

/-- An address is read from its groups on both sides of a run of zero groups, the last of
them perhaps written as an IPv4 address. -/
theorem Ipv6.read?_around {n : Nat} {before after : List Group} {tail : List Char} {mapped : Bool}
    {ip : Ipv6} (pos : 0 < n) (groups : ip.groups = before ++ List.replicate n 0 ++ after)
    (htail : readGroups true (7 - before.length) tail = ⟨after, mapped, []⟩) :
    read? (groupsText before ++ ':' :: ':' :: tail) = some ip := by
  have count : before.length + n + after.length = 8 := by
    rw [← ip.length_eq, groups, List.length_append, List.length_append, List.length_replicate]
  have head : readGroups true 8 (groupsText before ++ ':' :: ':' :: tail) =
      ⟨before, false, ':' :: ':' :: tail⟩ :=
    readGroups_groupsText (by omega) (.inr ⟨_, rfl⟩)
  have missing : 8 - (before.length + after.length) = n := by omega
  have short : before.length ≠ 8 := by omega
  simp only [read?, head, htail, missing, short, if_false, Bool.false_eq_true, List.isEmpty_nil,
    if_true, ← groups, ofGroups?_groups]

/-- An address is read back when one run of its zeros is left out. -/
theorem Ipv6.read?_compressed {n : Nat} {before after : List Group} {ip : Ipv6} (pos : 0 < n)
    (groups : ip.groups = before ++ List.replicate n 0 ++ after) :
    read? (groupsText before ++ ':' :: ':' :: groupsText after) = some ip := by
  have count : before.length + n + after.length = 8 := by
    rw [← ip.length_eq, groups, List.length_append, List.length_append, List.length_replicate]
  exact read?_around pos groups (readGroups_whole (by omega))

/-- An address is read back when no zeros are left out. -/
theorem Ipv6.read?_groupsText (ip : Ipv6) : read? (groupsText ip.groups) = some ip := by
  simp [read?, readGroups_whole (Nat.le_of_eq ip.length_eq), ip.length_eq, ofGroups?_groups]

/-- A mapped address is its octets after five zero groups and one of ones. -/
theorem Ipv6.groups_of_mapped? {ip : Ipv6} {v4 : Ipv4} (h : ip.mapped? = some v4) :
    ip.groups = List.replicate 5 0 ++ 65535 :: v4.groups := by
  unfold mapped? at h
  split at h
  · rename_i g h' groups
    obtain rfl := Option.some.inj h
    rw [groups, Ipv4.groups]
    simp only [List.replicate, List.cons_append, List.nil_append, List.cons.injEq, true_and,
      and_true]
    exact ⟨Fin.ext (Nat.div_add_mod' g 256).symm, Fin.ext (Nat.div_add_mod' h' 256).symm⟩
  · cases h

/-- An address that stands for one of octets is read back when it ends in that. -/
theorem Ipv6.read?_mapped {ip : Ipv6} {v4 : Ipv4} (h : ip.mapped? = some v4) :
    read? ("::ffff:".toList ++ v4.text) = some ip := by
  have ones : groupText 65535 = "ffff".toList := by decide
  have octets : readGroups false 6 (':' :: v4.text) = ⟨v4.groups, true, []⟩ := by
    rw [readGroups]
    simp [groupStart?, v4.readIpv4?_text]
  have tail : readGroups true 7 ("ffff:".toList ++ v4.text) = ⟨65535 :: v4.groups, true, []⟩ := by
    have start : groupStart? true ("ffff:".toList ++ v4.text) =
        some (groupText 65535 ++ ':' :: v4.text) := by
      rw [ones]
      rfl
    rw [readGroups_groupText true 6 start (.colon _), octets]
  have groups : ip.groups = [] ++ List.replicate 5 0 ++ 65535 :: v4.groups := groups_of_mapped? h
  exact read?_around (by decide) groups tail

/-- **An address of groups is read back** from its text, in each of the three ways to write it. -/
theorem Ipv6.read?_text (ip : Ipv6) : read? ip.text = some ip := by
  unfold text
  split
  · exact read?_mapped ‹_›
  · dsimp only
    split_ifs with short
    · exact ip.read?_groupsText
    · obtain ⟨before, after, groups, text⟩ := exists_compressed (by omega) []
        (rfl : longestZeros ip.groups = longestZeros ip.groups)
      rw [text, List.nil_append]
      exact read?_compressed (by omega) groups

/-- The written form of an IPv6 address is none of an IPv4 address. -/
theorem Ipv6.readIpv4?_text (ip : Ipv6) : readIpv4? ip.text = none := by
  have whole : ∀ gs, readIpv4? (groupsText gs) = none := by
    intro gs
    have none := readIpv4?_groupsText gs EndsGroup.nil
    rwa [List.append_nil] at none
  unfold text
  split
  · exact readIpv4?_of_endsGroup (.colon _)
  · dsimp only
    split_ifs with short
    · exact whole _
    · obtain ⟨before, after, -, text⟩ := exists_compressed (by omega) []
        (rfl : longestZeros ip.groups = longestZeros ip.groups)
      rw [text]
      exact readIpv4?_groupsText _ (.colon _)

/-- **An address is read back** from its written form. -/
theorem Ip.read?_text (ip : Ip) : read? ip.text = some ip := by
  cases ip with
  | v4 ip => rw [read?, text, Ipv4.read?_text]
  | v6 ip =>
    have other : Ipv4.read? ip.text = none := by rw [Ipv4.read?, ip.readIpv4?_text]
    rw [read?, text, other, ip.read?_text]
    rfl

/-- Different addresses have different texts. -/
theorem Ip.text_injective {a b : Ip} (h : a.text = b.text) : a = b :=
  Option.some.inj (by rw [← a.read?_text, ← b.read?_text, h])

end Address
end Rollout
