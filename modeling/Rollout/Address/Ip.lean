/-
# Internet addresses

An IPv4 address is written as four decimal octets without leading zeros. An
IPv6 address is written as groups of one to four hexadecimal digits:

| written form | read as |
| --- | --- |
| eight groups | the groups |
| `h::t`, at most seven groups in `h` and `t` | `h`, as many zero groups as are missing, `t` |
| an IPv4 address in place of the last two groups of `h` or of `t` | its octets, two to a group |

An IPv4 address may end `h` only when `h` is the whole address. An address is
written in one way: lower case, no leading zeros, the first longest run of two
or more zero groups as `::`, and a mapped IPv4 address as `::ffff:a.b.c.d`.
-/

import Rollout.Text.Digits

namespace Rollout
namespace Address

open Text (hexValue? isHex digitsValue)

/-- Four octets. -/
structure Ipv4 where
  a : Fin 256
  b : Fin 256
  c : Fin 256
  d : Fin 256
  deriving DecidableEq, Repr

/-- One sixteen-bit group of an IPv6 address. -/
abbrev Group := Fin 65536

/-- Eight groups. -/
structure Ipv6 where
  groups : List Group
  length_eq : groups.length = 8
  deriving DecidableEq, Repr

/-- An address of either kind. -/
inductive Ip where
  | v4 (ip : Ipv4)
  | v6 (ip : Ipv6)
  deriving DecidableEq, Repr

/-- A row of digits without a leading zero that is not the only digit. -/
def isShortest : List Char → Bool
  | '0' :: _ :: _ => false
  | _ => true

/-- Reads one decimal octet from the start of a text. -/
def readOctet? (cs : List Char) : Option (Fin 256 × List Char) :=
  let ds := cs.takeWhile Char.isDigit
  let n := digitsValue 10 ds
  if h : n < 256 then
    if 1 ≤ ds.length ∧ ds.length ≤ 3 ∧ isShortest ds then
      some (⟨n, h⟩, cs.dropWhile Char.isDigit)
    else none
  else none

/-- Reads a full stop and one decimal octet. -/
def readNextOctet? : List Char → Option (Fin 256 × List Char)
  | '.' :: cs => readOctet? cs
  | _ => none

/-- Reads an IPv4 address from the start of a text. -/
def readIpv4? (cs : List Char) : Option (Ipv4 × List Char) := do
  let (a, cs) ← readOctet? cs
  let (b, cs) ← readNextOctet? cs
  let (c, cs) ← readNextOctet? cs
  let (d, cs) ← readNextOctet? cs
  return (⟨a, b, c, d⟩, cs)

/-- Reads one group of one to four hexadecimal digits from the start of a text. -/
def readGroup? (cs : List Char) : Option (Group × List Char) :=
  let ds := cs.takeWhile isHex
  let n := digitsValue 16 ds
  if h : n < 65536 then
    if 1 ≤ ds.length ∧ ds.length ≤ 4 then some (⟨n, h⟩, cs.dropWhile isHex) else none
  else none

/-- The two groups that hold the octets of an IPv4 address. -/
def Ipv4.groups (ip : Ipv4) : List Group :=
  [⟨ip.a * 256 + ip.b, by omega⟩, ⟨ip.c * 256 + ip.d, by omega⟩]

/-- The groups read from the start of a text, whether an IPv4 address ended
them, and the rest of the text. -/
structure GroupRun where
  groups : List Group
  endsInIpv4 : Bool
  rest : List Char

/-- Where the next group would start: at once for the first group, after a
colon for the others. -/
def groupStart? (first : Bool) (cs : List Char) : Option (List Char) :=
  if first then some cs
  else
    match cs with
    | ':' :: rest => some rest
    | _ => none

/-- Reads as many groups as follow one another, `room` at most. An IPv4 address
is tried wherever two groups have room. -/
def readGroups (first : Bool) : (room : Nat) → List Char → GroupRun
  | 0, cs => ⟨[], false, cs⟩
  | room + 1, cs =>
    match groupStart? first cs with
    | none => ⟨[], false, cs⟩
    | some body =>
      match (if room = 0 then none else readIpv4? body) with
      | some (ip, rest) => ⟨ip.groups, true, rest⟩
      | none =>
        match readGroup? body with
        | some (g, rest) =>
          let run := readGroups false room rest
          ⟨g :: run.groups, run.endsInIpv4, run.rest⟩
        | none => ⟨[], false, cs⟩

/-- Eight groups as an address. -/
def Ipv6.ofGroups? (gs : List Group) : Option Ipv6 :=
  if h : gs.length = 8 then some ⟨gs, h⟩ else none

/-- The IPv6 address that a text is a written form of. -/
def Ipv6.read? (cs : List Char) : Option Ipv6 :=
  let head := readGroups true 8 cs
  if head.groups.length = 8 then
    if head.rest.isEmpty then Ipv6.ofGroups? head.groups else none
  else if head.endsInIpv4 then none
  else
    match head.rest with
    | ':' :: ':' :: cs =>
      let tail := readGroups true (7 - head.groups.length) cs
      let missing := 8 - (head.groups.length + tail.groups.length)
      if tail.rest.isEmpty then
        Ipv6.ofGroups? (head.groups ++ List.replicate missing 0 ++ tail.groups)
      else none
    | _ => none

/-- The IPv4 address that a text is the written form of. -/
def Ipv4.read? (cs : List Char) : Option Ipv4 :=
  match readIpv4? cs with
  | some (ip, []) => some ip
  | _ => none

/-- The address that a text is a written form of. -/
def Ip.read? (cs : List Char) : Option Ip :=
  match Ipv4.read? cs with
  | some ip => some (.v4 ip)
  | none => (Ipv6.read? cs).map .v6

/-- The decimal digits of an octet. -/
def octetText (n : Fin 256) : List Char :=
  if n.val < 10 then [Nat.digitChar n]
  else if n.val < 100 then [Nat.digitChar (n / 10), Nat.digitChar (n % 10)]
  else [Nat.digitChar (n / 100), Nat.digitChar (n / 10 % 10), Nat.digitChar (n % 10)]

/-- The hexadecimal digits of a group. -/
def groupText (g : Group) : List Char :=
  let digit (place : Nat) := Nat.digitChar (g.val / place % 16)
  if g.val < 16 then [digit 1]
  else if g.val < 256 then [digit 16, digit 1]
  else if g.val < 4096 then [digit 256, digit 16, digit 1]
  else [digit 4096, digit 256, digit 16, digit 1]

/-- The written form of an IPv4 address. -/
def Ipv4.text (ip : Ipv4) : List Char :=
  octetText ip.a ++ '.' :: octetText ip.b ++ '.' :: octetText ip.c ++ '.' :: octetText ip.d

/-- Groups joined by colons. -/
def groupsText : List Group → List Char
  | [] => []
  | [g] => groupText g
  | g :: gs => groupText g ++ ':' :: groupsText gs

/-- The number of zero groups at the start. -/
def leadingZeros (gs : List Group) : Nat :=
  (gs.takeWhile (· == 0)).length

/-- The length of the longest run of zero groups. -/
def longestZeros : List Group → Nat
  | [] => 0
  | g :: gs => max (leadingZeros (g :: gs)) (longestZeros gs)

/-- Writes the first run of `n` zero groups as two colons. -/
def compressed (n : Nat) (seen : List Group) : List Group → List Char
  | [] => groupsText seen
  | g :: gs =>
    if leadingZeros (g :: gs) = n then
      groupsText seen ++ ':' :: ':' :: groupsText ((g :: gs).drop n)
    else compressed n (seen ++ [g]) gs

/-- The IPv4 address that an IPv6 address maps. -/
def Ipv6.mapped? (ip : Ipv6) : Option Ipv4 :=
  match ip.groups with
  | [0, 0, 0, 0, 0, 65535, g, h] =>
    some ⟨⟨g / 256, by omega⟩, ⟨g % 256, by omega⟩, ⟨h / 256, by omega⟩, ⟨h % 256, by omega⟩⟩
  | _ => none

/-- The written form of an IPv6 address. -/
def Ipv6.text (ip : Ipv6) : List Char :=
  match ip.mapped? with
  | some v4 => "::ffff:".toList ++ v4.text
  | none =>
    let n := longestZeros ip.groups
    if n < 2 then groupsText ip.groups else compressed n [] ip.groups

/-- The written form of an address. -/
def Ip.text : Ip → List Char
  | .v4 ip => ip.text
  | .v6 ip => ip.text

end Address
end Rollout
