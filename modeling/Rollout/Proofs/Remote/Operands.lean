/-
# What scp is told

scp reads each of its last two arguments from the left:

| the argument has | is |
| --- | --- |
| a colon outside square brackets before any slash | a remote path; the host ends at the colon |
| no such colon | a local file |

A host may have a user before its last `@`, and may stand in square brackets. ssh
reads its destination in the same way, but for the colon.

Main statement: `Ssh.put_told_iff`. The host of a put stands as it is between the
user and the path, so scp is told that host unless it has a colon itself, as every
IPv6 address has; ssh is told it always.
-/

import Rollout.Address.Multiaddr
import Rollout.Deployment.Host
import Rollout.Proofs.Address.Characters
import Rollout.Proofs.Text.Trim
import Rollout.Proofs.Text.Search
import Rollout.Remote.Ssh

namespace Rollout

open Address (Ip Ipv4 Ipv6 isOctetChar isGroupChar)

/-! ### The arguments of scp and ssh -/

/-- Where ssh and scp go to. -/
structure Destination where
  user : Option String
  host : String
  deriving DecidableEq, Repr

/-- What an argument of scp names. -/
inductive Operand where
  | file (path : String)
  | remote (destination : Destination) (path : String)
  deriving DecidableEq, Repr

/-- A host without the square brackets it stands in. -/
def unbracketed (host : List Char) : List Char :=
  match Text.stripStart? ['['] host with
  | some inner => (Text.stripEnd? [']'] inner).getD host
  | none => host

/-- Reads a destination. -/
def Destination.read (cs : List Char) : Destination :=
  match Text.beforeLast? '@' cs, Text.afterLast? '@' cs with
  | some user, some host => ⟨some (String.ofList user), String.ofList (unbracketed host)⟩
  | _, _ => ⟨none, String.ofList (unbracketed cs)⟩

/-- A square bracket is open after a character, where one was open before it or not. -/
def bracketAfter (inside : Bool) (c : Char) : Bool :=
  if c = '[' then true else if c = ']' then false else inside

/-- A square bracket is open at the end of a text: no closing one follows the last that
opens. -/
def opensBracket (cs : List Char) : Bool :=
  cs.foldl bracketAfter false

/-- The texts before and after the first colon outside square brackets, if there is
one with no slash before it. -/
def splitHost? (inside : Bool) : List Char → Option (List Char × List Char)
  | [] => none
  | c :: cs =>
    if c = '/' then none
    else if c = ':' ∧ inside = false then some ([], cs)
    else (splitHost? (bracketAfter inside c) cs).map fun (host, path) => (c :: host, path)

/-- Reads an argument of scp. -/
def Operand.read (argument : String) : Operand :=
  match splitHost? false argument.toList with
  | some (host, path) => .remote (.read host) (String.ofList path)
  | none => .file argument

/-! ### The first colon -/

section

variable {inside : Bool} {before after cs : List Char}

/-- Looking for the separator passes over characters that are neither slashes nor colons, and
keeps count of the brackets. -/
theorem splitHost?_append (free : ∀ c ∈ before, c ≠ '/' ∧ c ≠ ':') :
    splitHost? inside (before ++ after) =
      (splitHost? (before.foldl bracketAfter inside) after).map
        fun (host, path) => (before ++ host, path) := by
  induction before generalizing inside with
  | nil => simp
  | cons c before ih =>
    obtain ⟨⟨slash, colon⟩, rest⟩ := List.forall_mem_cons.1 free
    rw [List.cons_append, splitHost?, if_neg slash, if_neg (fun h => colon h.1), ih rest,
      List.foldl_cons, Option.map_map]
    rfl

/-- **The host ends at the first colon**, if no bracket is open there. -/
theorem splitHost?_of_first (free : ∀ c ∈ before, c ≠ '/' ∧ c ≠ ':')
    (closed : opensBracket before = false) :
    splitHost? false (before ++ ':' :: after) = some (before, after) := by
  rw [splitHost?_append free]
  change (splitHost? (opensBracket before) _).map _ = _
  rw [closed, splitHost?, if_neg (by decide), if_pos ⟨rfl, rfl⟩]
  simp

/-- An argument has no host when every colon before its first slash stands in square
brackets. -/
theorem splitHost?_eq_none_iff :
    splitHost? inside cs = none ↔ ∀ before after, cs = before ++ ':' :: after →
      '/' ∈ before ∨ before.foldl bracketAfter inside = true := by
  induction cs generalizing inside with
  | nil => simp [splitHost?]
  | cons c cs ih =>
    rw [splitHost?]
    split_ifs with slash colon
    · refine iff_of_true rfl fun before after split => .inl ?_
      subst slash
      cases before with
      | nil => cases split
      | cons d before => exact (List.cons.inj split).1 ▸ List.mem_cons_self
    · obtain ⟨rfl, rfl⟩ := colon
      refine iff_of_false nofun fun all => ?_
      simpa using all [] cs rfl
    · rw [Option.map_eq_none_iff, ih]
      constructor
      · intro rest before after split
        cases before with
        | nil =>
          obtain ⟨rfl, -⟩ := List.cons.inj split
          exact .inr (by simpa using colon)
        | cons d before =>
          obtain ⟨rfl, rfl⟩ := List.cons.inj split
          exact (rest before after rfl).imp_left (List.mem_cons_of_mem _)
      · intro all before after split
        rcases all (c :: before) after (by rw [split]; rfl) with h | h
        · exact .inl ((List.mem_cons.1 h).resolve_left (Ne.symm slash))
        · exact .inr h

/-- In an open bracket nothing ends the host before a slash. -/
theorem splitHost?_inside {ds rest : List Char} (free : ']' ∉ ds) :
    splitHost? true (ds ++ '/' :: rest) = none := by
  induction ds with
  | nil => rfl
  | cons d ds ih =>
    rw [List.mem_cons, not_or] at free
    have stays : bracketAfter true d = true := by simp [bracketAfter, Ne.symm free.1]
    rw [List.cons_append, splitHost?, if_neg (by simp : ¬ (d = ':' ∧ true = false)), stays,
      ih free.2]
    split_ifs <;> rfl

/-- Characters that are no brackets leave brackets as they are. -/
theorem opensBracket_append {more : List Char} (plain : ∀ c ∈ more, c ≠ '[' ∧ c ≠ ']') :
    opensBracket (cs ++ more) = opensBracket cs := by
  rw [opensBracket, List.foldl_append, ← opensBracket]
  generalize opensBracket cs = inside
  induction more with
  | nil => rfl
  | cons c more ih =>
    obtain ⟨⟨opening, closing⟩, rest⟩ := List.forall_mem_cons.1 plain
    rw [List.foldl_cons, bracketAfter, if_neg opening, if_neg closing]
    exact ih rest

end

/-! ### Destinations -/

/-- A character that neither scp nor ssh gives a meaning to, but for the colon. -/
def isPlainHostChar (c : Char) : Bool :=
  !(['/', '@', '[', ']'].contains c)

section

variable {user host path : List Char}

/-- A plain host has no brackets around it. -/
theorem unbracketed_of_plain (plain : ∀ c ∈ host, isPlainHostChar c = true) :
    unbracketed host = host := by
  cases host with
  | nil => rfl
  | cons c host =>
    have opening : '[' ≠ c := by
      rintro rfl
      exact absurd (plain '[' List.mem_cons_self) (by decide)
    rw [unbracketed, Text.stripStart?, if_neg opening]

/-- **The host is read back** from behind a user. -/
theorem Destination.read_append (plain : ∀ c ∈ host, isPlainHostChar c = true) :
    read (user ++ '@' :: host) = ⟨some (String.ofList user), String.ofList host⟩ := by
  have free : '@' ∉ host := fun h => absurd (plain '@' h) (by decide)
  have front : Text.beforeLast? '@' (user ++ '@' :: host) = some user :=
    Text.beforeLast?_append_cons free
  have back : Text.afterLast? '@' (user ++ '@' :: host) = some host :=
    Text.afterLast?_eq_some.2 ⟨free, user, rfl⟩
  rw [read, front, back]
  dsimp only
  rw [unbracketed_of_plain plain]

end

/-! ### Hosts -/

/-- A character that a DNS name may have. -/
def isDnsChar (c : Char) : Bool :=
  c.isAlphanum || c == '-' || c == '.' || c == '_'

/-- A host that an address can be made for: an Internet address, or a DNS name. -/
inductive SupportedHost (host : String) : Prop where
  | internet {ip : Ip} (reads : Ip.read? host.toList = some ip)
  | named (chars : ∀ c ∈ host.toList, isDnsChar c = true)

namespace SupportedHost

variable {host : String}

/-- **No host has a character that means anything to ssh.** -/
theorem plain (h : SupportedHost host) : ∀ c ∈ host.toList, isPlainHostChar c = true := by
  -- Each kind of host has characters of its own, none of them among the four.
  have among {p : Char → Bool} (all : ∀ c ∈ host.toList, p c = true)
      (none : ['/', '@', '[', ']'].any p = false) :
      ∀ c ∈ host.toList, isPlainHostChar c = true := by
    intro c hc
    cases special : ['/', '@', '[', ']'].contains c with
    | false => rw [isPlainHostChar, special, Bool.not_false]
    | true =>
      exact absurd (all c hc) (List.any_eq_false.1 none c (List.contains_iff_mem.1 special))
  cases h with
  | named chars => exact among chars rfl
  | @internet ip reads =>
    cases ip with
    | v4 ip => exact among (Address.isOctetChar_of_read? (Ip.read?_eq_v4 reads)) rfl
    | v6 ip => exact among (Address.isGroupChar_of_read? (Ip.read?_eq_v6 reads)) rfl

/-- **A host has a colon** exactly when it is an IPv6 address. -/
theorem colon_mem_iff (h : SupportedHost host) :
    ':' ∈ host.toList ↔ ∃ ip, Ip.read? host.toList = some (.v6 ip) := by
  constructor
  · intro colon
    cases h with
    | named chars => exact absurd (chars ':' colon) (by decide)
    | @internet ip reads =>
      cases ip with
      | v4 ip =>
        have octets := Address.isOctetChar_of_read? (Ip.read?_eq_v4 reads)
        exact absurd (octets ':' colon) (by decide)
      | v6 ip => exact ⟨ip, reads⟩
  · rintro ⟨ip, reads⟩
    exact Address.colon_mem_of_read? (Ip.read?_eq_v6 reads)

end SupportedHost

/-! ### The arguments of a put -/

/-- A destination is the user, an at sign and the host. -/
theorem toList_destination (user host : String) :
    (user ++ "@" ++ host).toList = user.toList ++ '@' :: host.toList := by
  simp [String.toList_append]

/-- The destination of a user on a host is read back. -/
theorem Destination.read_destination {user host : String}
    (plain : ∀ c ∈ host.toList, isPlainHostChar c = true) :
    read (user ++ "@" ++ host).toList = ⟨some user, host⟩ := by
  rw [toList_destination, read_append plain, String.ofList_toList, String.ofList_toList]

namespace Operand

variable {user host : String}

/-- A plain character of a host separates nothing and is no bracket. -/
theorem ne_of_isPlainHostChar {c : Char} (h : isPlainHostChar c = true) :
    c ≠ '/' ∧ c ≠ '[' ∧ c ≠ ']' := by
  have apart : c ∉ ['/', '@', '[', ']'] := by simpa [isPlainHostChar] using h
  simp only [List.mem_cons, List.not_mem_nil, or_false, not_or] at apart
  exact ⟨apart.1, apart.2.2⟩

/-- **The host is what stands before the first colon**, where the user leaves no
bracket open. -/
theorem read_cut (path : String) (free : ∀ c ∈ user.toList, c ≠ '/' ∧ c ≠ ':')
    (closed : opensBracket user.toList = false)
    (plain : ∀ c ∈ host.toList, isPlainHostChar c = true) (colonless : ':' ∉ host.toList) :
    read (user ++ "@" ++ host ++ ":" ++ path) = .remote ⟨some user, host⟩ path := by
  have text : (user ++ "@" ++ host ++ ":" ++ path).toList =
      (user ++ "@" ++ host).toList ++ ':' :: path.toList := by
    simp [String.toList_append]
  have free : ∀ c ∈ (user ++ "@" ++ host).toList, c ≠ '/' ∧ c ≠ ':' := by
    rw [toList_destination]
    refine List.forall_mem_append.2 ⟨free, List.forall_mem_cons.2 ⟨by decide, fun c hc => ?_⟩⟩
    exact ⟨(ne_of_isPlainHostChar (plain c hc)).1, fun colon => colonless (colon ▸ hc)⟩
  have still : opensBracket (user ++ "@" ++ host).toList = false := by
    rw [toList_destination, opensBracket_append, closed]
    exact List.forall_mem_cons.2 ⟨by decide, fun c hc => (ne_of_isPlainHostChar (plain c hc)).2⟩
  rw [read, text, splitHost?_of_first free still]
  dsimp only
  rw [Destination.read_destination plain, String.ofList_toList]

/-- **A bracket that the user leaves open** hides the host: the argument is a local
file. -/
theorem read_hidden (name : String) (free : ∀ c ∈ user.toList, c ≠ '/' ∧ c ≠ ':')
    (opened : opensBracket user.toList = true)
    (plain : ∀ c ∈ host.toList, isPlainHostChar c = true) :
    read (user ++ "@" ++ host ++ ":" ++ inWorkingDirectory name) =
      .file (user ++ "@" ++ host ++ ":" ++ inWorkingDirectory name) := by
  have text : (user ++ "@" ++ host ++ ":" ++ inWorkingDirectory name).toList =
      user.toList ++ (('@' :: (host.toList ++ [':', '.'])) ++ '/' :: name.toList) := by
    simp [String.toList_append, inWorkingDirectory]
  have closing : ']' ∉ '@' :: (host.toList ++ [':', '.']) := by
    simp only [List.mem_cons, List.mem_append, List.not_mem_nil, or_false, not_or]
    refine ⟨by decide, fun hc => ?_, by decide, by decide⟩
    exact (ne_of_isPlainHostChar (plain ']' hc)).2.2 rfl
  have none : splitHost? false (user ++ "@" ++ host ++ ":" ++ inWorkingDirectory name).toList =
      none := by
    rw [text, splitHost?_append free]
    change (splitHost? (opensBracket user.toList) _).map _ = _
    rw [opened, splitHost?_inside closing]
    rfl
  rw [read, none]

/-- **A local file is read as one** when every colon before its first slash stands in
square brackets. -/
theorem read_eq_file_iff {file : String} : read file = .file file ↔
    ∀ before after, file.toList = before ++ ':' :: after →
      '/' ∈ before ∨ opensBracket before = true := by
  refine Iff.trans ?_ splitHost?_eq_none_iff
  rw [read]
  cases splitHost? false file.toList with
  | none => simp
  | some split => simp

end Operand

namespace Ssh

variable {host : String}

/-- An IPv6 address is cut at its first colon, and its rest taken for the path. -/
theorem read_cut_of_v6 (ssh : Ssh) (user : ∀ c ∈ ssh.user.toList, c ≠ '/' ∧ c ≠ ':')
    (closed : opensBracket ssh.user.toList = false) (supported : SupportedHost host) {ip : Ipv6}
    (reads : Ip.read? host.toList = some (.v6 ip)) (path : String) :
    ∃ start rest, host = start ++ ":" ++ rest ∧
      Operand.read (ssh.destination host ++ ":" ++ path) =
        .remote ⟨some ssh.user, start⟩ (rest ++ ":" ++ path) := by
  have plain := supported.plain
  obtain ⟨start, rest, split, first⟩ := List.eq_append_cons_of_mem
    (supported.colon_mem_iff.2 ⟨ip, reads⟩)
  have parts : host = String.ofList start ++ ":" ++ String.ofList rest := by
    rw [← String.toList_inj, split]
    simp [String.toList_append]
  refine ⟨_, _, parts, ?_⟩
  have text : ssh.destination host ++ ":" ++ path =
      ssh.user ++ "@" ++ String.ofList start ++ ":" ++ (String.ofList rest ++ ":" ++ path) := by
    conv => lhs; rw [parts]
    simp only [destination, String.append_assoc]
  rw [text]
  refine Operand.read_cut _ user closed (fun c hc => plain c ?_) (by rwa [String.toList_ofList])
  rw [String.toList_ofList] at hc
  rw [split]
  exact List.mem_append_left _ hc

/-- **scp is told the host that was meant, unless it is an IPv6 address.** The last
arguments of a put are its file and the user, the host and the remote path as they
are. Where the user leaves no square bracket open, the host that scp reads is the one
that was meant exactly when it is no IPv6 address; an IPv6 address is cut at its first
colon, and its rest taken for the path. ssh reads every host as it was meant. The file
is read as one exactly when every colon before its first slash stands in brackets. -/
theorem put_told_iff (ssh : Ssh) (user : ∀ c ∈ ssh.user.toList, c ≠ '/' ∧ c ≠ ':')
    (supported : SupportedHost host) (file name : String) :
    ∃ front target,
      (ssh.invocation ⟨host, .put file (inWorkingDirectory name)⟩).arguments =
        front ++ [file, target] ∧
      (Operand.read target = .remote ⟨some ssh.user, host⟩ (inWorkingDirectory name) ↔
        (∀ ip, Ip.read? host.toList ≠ some (.v6 ip)) ∧ opensBracket ssh.user.toList = false) ∧
      (∀ ip, Ip.read? host.toList = some (.v6 ip) → opensBracket ssh.user.toList = false →
        ∃ start rest, host = start ++ ":" ++ rest ∧
          Operand.read target =
            .remote ⟨some ssh.user, start⟩ (rest ++ ":" ++ inWorkingDirectory name)) ∧
      (Operand.read file = .file file ↔ ∀ before after, file.toList = before ++ ':' :: after →
        '/' ∈ before ∨ opensBracket before = true) ∧
      Destination.read (ssh.destination host).toList = ⟨some ssh.user, host⟩ := by
  have plain := supported.plain
  refine ⟨ssh.baseArguments, ssh.destination host ++ ":" ++ inWorkingDirectory name, rfl, ?_,
    fun ip reads closed => ssh.read_cut_of_v6 user closed supported reads _,
    Operand.read_eq_file_iff, Destination.read_destination plain⟩
  cases opened : opensBracket ssh.user.toList with
  | true =>
    have hidden := Operand.read_hidden name user opened plain
    rw [destination, hidden]
    simp
  | false =>
    rw [and_iff_left rfl]
    constructor
    · intro told ip reads
      obtain ⟨start, rest, parts, other⟩ := ssh.read_cut_of_v6 user opened supported reads
        (inWorkingDirectory name)
      rw [told] at other
      obtain rfl : host = start := by simpa using (Operand.remote.inj other).1
      -- The rest of the address cannot be empty, as it has its colon at least.
      have length := congrArg String.length parts
      simp only [String.length_append] at length
      have colon : ":".length = 1 := rfl
      omega
    · intro other
      refine Operand.read_cut _ user opened plain fun colon => ?_
      obtain ⟨ip, reads⟩ := supported.colon_mem_iff.1 colon
      exact other ip reads

/-- In brackets an IPv6 address would be told as it is. -/
example : Operand.read "root@[::1]:./node.yml" = .remote ⟨some "root", "::1"⟩ "./node.yml" := by
  decide

/-- A host that is told as it is. -/
theorem put_told_iff_standard :
    (∀ c ∈ "root".toList, c ≠ '/' ∧ c ≠ ':') ∧ SupportedHost "10.0.0.5" ∧
      ∃ front target,
        ((⟨"root", []⟩ : Ssh).invocation
          ⟨"10.0.0.5", .put "node.yml" (inWorkingDirectory "node.yml")⟩).arguments =
            front ++ ["node.yml", target] ∧
        Operand.read target = .remote ⟨some "root", "10.0.0.5"⟩ "./node.yml" := by
  have reads : Ip.read? "10.0.0.5".toList = some (.v4 ⟨10, 0, 0, 5⟩) := by decide +kernel
  have user : ∀ c ∈ "root".toList, c ≠ '/' ∧ c ≠ ':' := by simp
  have supported : SupportedHost "10.0.0.5" := .internet reads
  obtain ⟨front, target, last, told, -⟩ :=
    put_told_iff ⟨"root", []⟩ user supported "node.yml" "node.yml"
  refine ⟨user, supported, front, target, last, told.2 ⟨fun ip other => ?_, by decide⟩⟩
  rw [reads] at other
  cases Option.some.inj other

/-- The loopback address is told as an empty host. -/
theorem put_told_loopback :
    SupportedHost "::1" ∧
      ((⟨"root", []⟩ : Ssh).invocation
        ⟨"::1", .put "node.yml" (inWorkingDirectory "node.yml")⟩).arguments =
          ["-o", "BatchMode=yes", "node.yml", "root@::1:./node.yml"] ∧
      Operand.read "root@::1:./node.yml" = .remote ⟨some "root", ""⟩ ":1:./node.yml" := by
  have reads : Ip.read? "::1".toList = some (.v6 ⟨[0, 0, 0, 0, 0, 0, 0, 1], rfl⟩) := by
    decide +kernel
  exact ⟨.internet reads, rfl, by decide⟩

end Ssh
end Rollout
