/-
# The ports of a node are a set

What a listing says about a node is the set of node ports that its lines
publish:

| the set | the reading |
| --- | --- |
| one port of each transport | the two ports |
| two ports of one transport | a clash |
| any other | a wrong count |

An error names every port of the set once, in the order in which the ports first
appear. Main statement: `readPorts_iff`. It follows that the order of the lines,
lines that are repeated, further bindings of a port and unrelated lines make no
difference.
-/

import Mathlib.Data.List.Basic
import Mathlib.Data.List.Induction
import Mathlib.Data.Set.Insert
import Mathlib.Logic.Relation
import Rollout.Container.Ports
import Rollout.Proofs.Text.Search
import Rollout.Proofs.Text.Trim

namespace Rollout
namespace Container

open Text (AroundFirst TrimsTo)

/-! ### One line -/

/-- A line publishes a node port: the text after the first arrow of the line, trimmed, is
the port or ends in a colon, its last one, and the port. The port is a row of digits, and
starts with that of a transport. -/
structure Publishes (line port : List Char) : Prop where
  binding : ∃ before after binding, AroundFirst ['-', '>'] line before after ∧
    TrimsTo after binding ∧
    ((∃ address, binding = address ++ ':' :: port ∧ ':' ∉ port) ∨ ':' ∉ binding ∧ binding = port)
  nonempty : port ≠ []
  digits : ∀ c ∈ port, c.isDigit = true
  first : port.head? = some '7' ∨ port.head? = some '9'

/-- Digits are characters of which there is at least one, and all are decimal digits. -/
theorem isDigits_iff {cs : List Char} :
    isDigits cs = true ↔ cs ≠ [] ∧ ∀ c ∈ cs, c.isDigit = true := by
  simp [isDigits]

/-- The transport of a port is the one that its first digit says. -/
theorem ofPort?_eq_some {port : List Char} {t : Transport} :
    Transport.ofPort? port = some t ↔ port.head? = some t.digit := by
  cases port with
  | nil => simp [Transport.ofPort?]
  | cons c cs =>
    rw [List.head?_cons, Option.some.injEq]
    by_cases seven : c = '7'
    · subst seven
      cases t <;> simp [Transport.ofPort?, Transport.digit]
    by_cases nine : c = '9'
    · subst nine
      cases t <;> simp [Transport.ofPort?, Transport.digit]
    have none : Transport.ofPort? (c :: cs) = Option.none := by
      simp [Transport.ofPort?, Transport.digit, Ne.symm seven, Ne.symm nine]
    have unclassified : Option.none ≠ some t := (Option.some_ne_none t).symm
    rw [none]
    cases t
    case tcp => exact iff_of_false unclassified seven
    case ws => exact iff_of_false unclassified nine

/-- A port has a transport when its first digit is a seven or a nine. -/
theorem isSome_ofPort? {port : List Char} :
    (Transport.ofPort? port).isSome ↔ port.head? = some '7' ∨ port.head? = some '9' := by
  rw [Option.isSome_iff_exists]
  simp only [ofPort?_eq_some]
  constructor
  · rintro ⟨_ | _, h⟩
    · exact .inl h
    · exact .inr h
  · rintro (h | h)
    · exact ⟨.tcp, h⟩
    · exact ⟨.ws, h⟩

/-- **The port that a line publishes** is behind the last colon of what follows the first arrow,
or is all of that where there is no colon. It is all digits. -/
theorem hostPort?_eq_some {line port : List Char} : hostPort? line = some port ↔
    (∃ before after binding, AroundFirst ['-', '>'] line before after ∧ TrimsTo after binding ∧
      ((∃ address, binding = address ++ ':' :: port ∧ ':' ∉ port) ∨
        ':' ∉ binding ∧ binding = port)) ∧ port ≠ [] ∧ ∀ c ∈ port, c.isDigit = true := by
  rw [hostPort?]
  cases h : Text.splitFirst? ['-', '>'] line with
  | none =>
    refine ⟨nofun, ?_⟩
    rintro ⟨⟨before, after, -, around, -⟩, -⟩
    rw [Text.splitFirst?_eq_some.2 around] at h
    cases h
  | some parts =>
    obtain ⟨before, after⟩ := parts
    have around := Text.splitFirst?_eq_some.1 h
    dsimp only
    constructor
    · intro found
      split at found
      · rename_i digits
        obtain rfl := Option.some.inj found
        exact ⟨⟨before, after, _, around, Text.trimsTo_trim after,
          Text.getD_afterLast?_eq_iff.1 rfl⟩,
          isDigits_iff.1 digits⟩
      · cases found
    · rintro ⟨⟨before', after', binding, around', trims, ends⟩, digits⟩
      obtain ⟨rfl, rfl⟩ := around.unique around'
      rw [Text.trim_eq_iff.2 trims, Text.getD_afterLast?_eq_iff.2 ends, if_pos (isDigits_iff.2 digits)]

/-- **A line is read as the node port it publishes.** -/
theorem nodePort?_eq_some {line port : List Char} :
    nodePort? line = some port ↔ Publishes line port := by
  have read : nodePort? line = some port ↔
      hostPort? line = some port ∧ (Transport.ofPort? port).isSome := by
    rw [nodePort?]
    cases hostPort? line with
    | none => exact ⟨nofun, fun h => nomatch h.1⟩
    | some found =>
      dsimp only
      constructor
      · intro h
        split at h
        · rename_i classified
          obtain rfl := Option.some.inj h
          exact ⟨rfl, classified⟩
        · cases h
      · rintro ⟨⟨⟩, classified⟩
        exact if_pos classified
  rw [read, hostPort?_eq_some, isSome_ofPort?]
  exact ⟨fun ⟨⟨binding, nonempty, digits⟩, first⟩ => ⟨binding, nonempty, digits, first⟩,
    fun ⟨binding, nonempty, digits, first⟩ => ⟨⟨binding, nonempty, digits⟩, first⟩⟩

/-- A line publishes one node port at most. -/
theorem Publishes.unique {line p q : List Char} (hp : Publishes line p) (hq : Publishes line q) :
    p = q :=
  Option.some.inj ((nodePort?_eq_some.2 hp).symm.trans (nodePort?_eq_some.2 hq))

/-! ### The ports that lines publish -/

/-- Among lines a port first appears before another does: some of the first lines
publish the one, and none of them the other. -/
def Precedes (lines : List (List Char)) (p q : List Char) : Prop :=
  ∃ first, first <+: lines ∧ (∃ line ∈ first, Publishes line p) ∧
    ∀ line ∈ first, ¬ Publishes line q

/-- What stands before something in the lines does so when there are more lines. -/
theorem Precedes.append {lines : List (List Char)} {p q : List Char} (h : Precedes lines p q)
    (more : List (List Char)) : Precedes (lines ++ more) p q := by
  obtain ⟨first, le, rest⟩ := h
  exact ⟨first, le.trans (List.prefix_append lines more), rest⟩

/-- Of two ports one is published first. -/
theorem Precedes.asymm {lines : List (List Char)} {p q : List Char} (h : Precedes lines p q) :
    ¬ Precedes lines q p := by
  obtain ⟨first, le, ⟨line, mem, publishes⟩, without⟩ := h
  rintro ⟨first', le', ⟨line', mem', publishes'⟩, without'⟩
  rcases List.prefix_or_prefix_of_prefix le le' with shorter | shorter
  · exact without' line (shorter.mem mem) publishes
  · exact without line' (shorter.mem mem') publishes'

/-- The node ports that lines publish, as they are collected. -/
def collected (lines : List (List Char)) : List (List Char) :=
  (lines.filterMap nodePort?).foldl addNew []

theorem nodePorts_eq (output : List Char) : nodePorts output = collected (Text.lines output) :=
  rfl

/-- A line that publishes nothing adds no port. -/
theorem collected_concat_of_not {lines : List (List Char)} {line : List Char}
    (h : ∀ p, ¬ Publishes line p) : collected (lines ++ [line]) = collected lines := by
  have none : nodePort? line = Option.none :=
    Option.eq_none_iff_forall_ne_some.2 fun p hp => h p (nodePort?_eq_some.1 hp)
  rw [collected, List.filterMap_append, List.filterMap_cons_none none, List.filterMap_nil,
    List.append_nil, collected]

/-- A line that publishes a port adds it unless it is there. -/
theorem collected_concat {lines : List (List Char)} {line port : List Char}
    (h : Publishes line port) :
    collected (lines ++ [line]) = addNew (collected lines) port := by
  rw [collected, List.filterMap_append, List.filterMap_cons_some (nodePort?_eq_some.2 h),
    List.filterMap_nil, List.foldl_append, collected]
  rfl

/-- A list has every port that lines publish once, in the order in which the ports first
appear. -/
structure ListsPorts (lines found : List (List Char)) : Prop where
  once : found.Nodup
  all : ∀ p, p ∈ found ↔ ∃ line ∈ lines, Publishes line p
  order : found.Pairwise (Precedes lines)

/-- A port is published on lines and a last one when it is on either. -/
theorem publishes_concat_iff {lines : List (List Char)} {line p : List Char} :
    (∃ l ∈ lines ++ [line], Publishes l p) ↔
      (∃ l ∈ lines, Publishes l p) ∨ Publishes line p := by
  simp only [List.mem_append, List.mem_singleton, or_and_right, exists_or, exists_eq_left]

namespace ListsPorts

variable {lines found : List (List Char)} {line port : List Char}

/-- A further line that publishes no port, or one that is listed, adds nothing. -/
theorem concat_of_forall_mem (h : ListsPorts lines found)
    (listed : ∀ p, Publishes line p → p ∈ found) : ListsPorts (lines ++ [line]) found where
  once := h.once
  all p := by
    rw [publishes_concat_iff, ← h.all, or_iff_left_of_imp (listed p)]
  order := h.order.imp fun precedes => precedes.append [line]

/-- A further line that publishes another port adds it at the end. -/
theorem concat_of_not_mem (h : ListsPorts lines found) (publishes : Publishes line port)
    (new : port ∉ found) : ListsPorts (lines ++ [line]) (found ++ [port]) where
  once := List.nodup_append.2 ⟨h.once, List.pairwise_singleton _ port, fun p hp q hq => by
    rintro rfl
    exact new (List.mem_singleton.1 hq ▸ hp)⟩
  all p := by
    rw [publishes_concat_iff, ← h.all, List.mem_append, List.mem_singleton]
    refine or_congr_right ⟨?_, fun publishes' => publishes'.unique publishes⟩
    rintro rfl
    exact publishes
  order := by
    -- Every port before the new one is published by the lines so far, the new one is not.
    have order := h.order.imp fun precedes => precedes.append [line]
    refine List.pairwise_append.2 ⟨order, List.pairwise_singleton _ port, fun p hp q hq => ?_⟩
    obtain rfl := List.mem_singleton.1 hq
    exact ⟨lines, List.prefix_append lines [line], (h.all p).1 hp,
      fun l hl publishes' => new ((h.all q).2 ⟨l, hl, publishes'⟩)⟩

end ListsPorts

/-- **The collected ports** are each port once, in order. -/
theorem listsPorts_collected (lines : List (List Char)) : ListsPorts lines (collected lines) := by
  induction lines using List.reverseRecOn with
  | nil => exact ⟨.nil, by simp [collected], .nil⟩
  | append_singleton lines line ih =>
    by_cases publishes : ∃ port, Publishes line port
    · obtain ⟨port, publishes⟩ := publishes
      rw [collected_concat publishes, addNew]
      split
      · rename_i known
        rw [List.contains_iff_mem] at known
        exact ih.concat_of_forall_mem fun p publishes' => publishes.unique publishes' ▸ known
      · rename_i new
        rw [List.contains_iff_mem] at new
        exact ih.concat_of_not_mem publishes new
    · rw [not_exists] at publishes
      rw [collected_concat_of_not publishes]
      exact ih.concat_of_forall_mem fun p publishes' => absurd publishes' (publishes p)

/-- There is one such list. -/
theorem ListsPorts.unique {lines found found' : List (List Char)} (h : ListsPorts lines found)
    (h' : ListsPorts lines found') : found = found' := by
  have perm : found.Perm found' :=
    (List.perm_ext_iff_of_nodup h.once h'.once).2 fun p => (h.all p).trans (h'.all p).symm
  exact perm.eq_of_pairwise (fun p q _ _ le le' => absurd le' le.asymm) h.order h'.order

/-! ### What a listing is read as -/

/-- The node ports that a listing publishes. -/
def nodePortSet (output : String) : Set String :=
  {p | ∃ line ∈ Text.lines output.toList, Publishes line p.toList}

/-- The ports in the set are these two, one of each transport. -/
structure OnePerTransport (set : Set String) (ports : Ports) : Prop where
  exactly : set = {ports.tcp, ports.ws}
  tcp : ports.tcp.toList.head? = some '7'
  ws : ports.ws.toList.head? = some '9'

/-- The ports in the set are two of one transport. -/
def SameTransport (set : Set String) : Prop :=
  ∃ p q, p ≠ q ∧ set = {p, q} ∧ p.toList.head? = q.toList.head?

/-- The ports in the order in which the lines of a listing first publish them. -/
def InOrder (output : String) (found : List String) : Prop :=
  ListsPorts (Text.lines output.toList) (found.map String.toList)

/-- **The ports that are collected** are those of nodes, in the order in which they first appear. -/
theorem inOrder_nodePorts (output : String) :
    InOrder output ((nodePorts output.toList).map String.ofList) := by
  rw [InOrder, List.map_map, nodePorts_eq]
  have same : (String.toList ∘ String.ofList) = id := funext fun _ => String.toList_ofList
  rw [same, List.map_id]
  exact listsPorts_collected _

/-- The ports of an output have one order. -/
theorem InOrder.unique {output : String} {found found' : List String} (h : InOrder output found)
    (h' : InOrder output found') : found = found' :=
  (List.map_inj_right fun _ _ same => String.toList_injective same).1 (ListsPorts.unique h h')

/-- The ports in order are all the ports there are. -/
theorem InOrder.mem_iff {output p : String} {found : List String} (h : InOrder output found) :
    p ∈ nodePortSet output ↔ p ∈ found := by
  change (∃ line ∈ Text.lines output.toList, Publishes line p.toList) ↔ p ∈ found
  rw [← h.all, List.mem_map]
  exact ⟨fun ⟨_, hq, eq⟩ => String.toList_injective eq ▸ hq, fun hp => ⟨p, hp, rfl⟩⟩

theorem InOrder.nodup {output : String} {found : List String} (h : InOrder output found) :
    found.Nodup :=
  List.Pairwise.of_map String.toList (fun _ _ ne same => ne (congrArg String.toList same)) h.once

/-- The ports for two transports are two. -/
theorem OnePerTransport.ne {set : Set String} {ports : Ports} (h : OnePerTransport set ports) :
    ports.tcp ≠ ports.ws := by
  intro same
  have clash := h.tcp
  rw [same, h.ws] at clash
  exact absurd clash (by decide)

/-- A set has the ports for both transports in one way at most. -/
theorem OnePerTransport.unique {set : Set String} {ports ports' : Ports}
    (h : OnePerTransport set ports) (h' : OnePerTransport set ports') : ports = ports' := by
  have clash : ∀ {p : String}, p.toList.head? = some '7' → p.toList.head? ≠ some '9' := by
    intro p hp
    rw [hp]
    decide
  rcases Set.pair_eq_pair_iff.1 (h.exactly.symm.trans h'.exactly) with ⟨tcp, ws⟩ | ⟨tcp, ws⟩
  · cases ports
    cases ports'
    simp_all
  · exact absurd h'.ws (tcp ▸ clash h.tcp)

/-- Where there is one port for each transport, no two ports clash. -/
theorem OnePerTransport.not_sameTransport {set : Set String} {ports : Ports}
    (h : OnePerTransport set ports) : ¬ SameTransport set := by
  rintro ⟨p, q, -, exactly, same⟩
  rcases Set.pair_eq_pair_iff.1 (h.exactly.symm.trans exactly) with ⟨rfl, rfl⟩ | ⟨rfl, rfl⟩
  · rw [h.tcp, h.ws] at same
    exact absurd same (by decide)
  · rw [h.tcp, h.ws] at same
    exact absurd same (by decide)

/-- Two ports are collected where the set is of two. -/
theorem nodePorts_of_pair {output p q : String} (ne : p ≠ q)
    (exactly : nodePortSet output = {p, q}) : ∃ a b, nodePorts output.toList = [a, b] := by
  have order := inOrder_nodePorts output
  have perm : ((nodePorts output.toList).map String.ofList).Perm [p, q] := by
    refine (List.perm_ext_iff_of_nodup order.nodup (by simpa using ne)).2 fun r => ?_
    rw [← order.mem_iff, exactly]
    simp
  have length := perm.length_eq
  rw [List.length_map] at length
  exact List.length_eq_two.1 length

/-- **A listing is read as what its ports are**: one of each transport, two of one, or neither. -/
theorem readPorts_cases (output : String) :
    (∃ ports, readPorts output = .ok ports ∧ OnePerTransport (nodePortSet output) ports) ∨
    (readPorts output = .error (.clash ((nodePorts output.toList).map String.ofList)) ∧
      SameTransport (nodePortSet output)) ∨
    (readPorts output = .error (.count ((nodePorts output.toList).map String.ofList)) ∧
      (∀ ports, ¬ OnePerTransport (nodePortSet output) ports) ∧
      ¬ SameTransport (nodePortSet output)) := by
  have order := inOrder_nodePorts output
  unfold readPorts
  dsimp only
  split
  · rename_i p q found
    rw [found] at order
    have exactly : nodePortSet output = {String.ofList p, String.ofList q} := by
      ext r
      rw [order.mem_iff]
      simp
    have ne : String.ofList p ≠ String.ofList q := by
      simpa using order.nodup
    have first : ∀ r ∈ [p, q], r.head? = some '7' ∨ r.head? = some '9' := by
      intro r hr
      obtain ⟨line, -, publishes⟩ :=
        (order.all r).1 (by simpa [String.toList_ofList, eq_comm] using hr)
      exact publishes.first
    -- The first digits of the two ports say which transports they are for.
    rcases first p (by simp) with hp | hp
    · rcases first q (by simp) with hq | hq
      · rw [(ofPort?_eq_some (t := .tcp)).2 hp, (ofPort?_eq_some (t := .tcp)).2 hq]
        exact .inr (.inl ⟨rfl, _, _, ne, exactly, by simp [hp, hq]⟩)
      · rw [(ofPort?_eq_some (t := .tcp)).2 hp, (ofPort?_eq_some (t := .ws)).2 hq]
        exact .inl ⟨_, rfl, exactly, by simpa using hp, by simpa using hq⟩
    · rcases first q (by simp) with hq | hq
      · rw [(ofPort?_eq_some (t := .ws)).2 hp, (ofPort?_eq_some (t := .tcp)).2 hq]
        exact .inl ⟨_, rfl, exactly.trans (Set.pair_comm _ _), by simpa using hq, by simpa using hp⟩
      · rw [(ofPort?_eq_some (t := .ws)).2 hp, (ofPort?_eq_some (t := .ws)).2 hq]
        exact .inr (.inl ⟨rfl, _, _, ne, exactly, by simp [hp, hq]⟩)
  · rename_i other
    have two : ∀ p q, p ≠ q → nodePortSet output ≠ {p, q} := by
      intro p q ne exactly
      obtain ⟨a, b, eq⟩ := nodePorts_of_pair ne exactly
      exact other a b eq
    exact .inr (.inr ⟨rfl, fun ports h => two _ _ h.ne h.exactly,
      fun ⟨p, q, ne, exactly, _⟩ => two p q ne exactly⟩)

/-! ### Listings with the same ports -/

/-- The same ports, or errors of the same kind. -/
def SameOutcome (r r' : Except PortError Ports) : Prop :=
  match r, r' with
  | .ok ports, .ok ports' => ports = ports'
  | .error (.clash _), .error (.clash _) => True
  | .error (.count _), .error (.count _) => True
  | _, _ => False

/-- The outcome depends on the set of ports only. -/
theorem sameOutcome_of_nodePortSet {output other : String}
    (h : nodePortSet output = nodePortSet other) :
    SameOutcome (readPorts output) (readPorts other) := by
  have cases := readPorts_cases other
  rw [← h] at cases
  rcases readPorts_cases output with ⟨ports, read, one⟩ | ⟨read, same⟩ | ⟨read, none, apart⟩
  · rcases cases with ⟨ports', read', one'⟩ | ⟨read', same'⟩ | ⟨-, none', -⟩
    · rw [read, read']
      exact one.unique one'
    · exact absurd same' one.not_sameTransport
    · exact absurd one (none' ports)
  · rcases cases with ⟨ports', read', one'⟩ | ⟨read', same'⟩ | ⟨-, -, apart'⟩
    · exact absurd same one'.not_sameTransport
    · rw [read, read']
      exact trivial
    · exact absurd same apart'
  · rcases cases with ⟨ports', read', one'⟩ | ⟨read', same'⟩ | ⟨read', -, -⟩
    · exact absurd one' (none ports')
    · exact absurd same' apart
    · rw [read, read']
      exact trivial

/-- One change of the lines of a listing. -/
inductive Varies : List (List Char) → List (List Char) → Prop where
  /-- Lines in another order. -/
  | reordered {lines lines' : List (List Char)} (perm : lines.Perm lines') : Varies lines lines'
  /-- A line is repeated. -/
  | repeated {lines : List (List Char)} {line : List Char} (mem : line ∈ lines) :
    Varies lines (line :: lines)
  /-- A further line publishes a port that a line publishes. -/
  | rebound {lines : List (List Char)} {line further port : List Char} (mem : line ∈ lines)
    (publishes : Publishes line port) (again : Publishes further port) :
    Varies lines (further :: lines)
  /-- A further line publishes no node port. -/
  | unrelated {lines : List (List Char)} {further : List Char}
    (unrelated : ∀ port, ¬ Publishes further port) : Varies lines (further :: lines)

/-- One variation of an output changes no port that is published. -/
theorem Varies.publishes_iff {lines lines' : List (List Char)} (h : Varies lines lines')
    (port : List Char) :
    (∃ line ∈ lines, Publishes line port) ↔ ∃ line ∈ lines', Publishes line port := by
  cases h with
  | reordered perm => simp only [perm.mem_iff]
  | repeated mem => simpa using fun publishes => ⟨_, mem, publishes⟩
  | rebound mem publishes again =>
    simpa using fun publishes' => ⟨_, mem, again.unique publishes' ▸ publishes⟩
  | unrelated unrelated => simp [unrelated port]

/-- **Outputs that vary** only in what does not matter have the same ports. -/
theorem nodePortSet_eq_of_varies {output other : String}
    (h : Relation.EqvGen Varies (Text.lines output.toList) (Text.lines other.toList)) :
    nodePortSet output = nodePortSet other := by
  have publishes_iff : ∀ {lines lines' : List (List Char)}, Relation.EqvGen Varies lines lines' →
      ∀ port, (∃ line ∈ lines, Publishes line port) ↔ ∃ line ∈ lines', Publishes line port := by
    intro lines lines' h port
    induction h with
    | rel _ _ varies => exact varies.publishes_iff port
    | refl _ => exact Iff.rfl
    | symm _ _ _ ih => exact ih.symm
    | trans _ _ _ _ _ ih ih' => exact ih.trans ih'
  ext port
  exact publishes_iff h port.toList

/-- **The ports of a node are a set.** For every listing:

- it is read as two ports exactly when these are its node ports, one of each transport;
- it is a clash exactly when its node ports are two of one transport, and its count is wrong
  exactly when neither holds, and such an error names the ports in the order of their first
  appearance;
- lines in another order, repeated lines, further bindings of a port, and lines that
  publish no node port, as many as there are, change neither the ports nor the kind of the
  error. -/
theorem readPorts_iff (output : String) :
    (∀ ports, readPorts output = .ok ports ↔ OnePerTransport (nodePortSet output) ports) ∧
    (∀ found, readPorts output = .error (.clash found) ↔
      InOrder output found ∧ SameTransport (nodePortSet output)) ∧
    (∀ found, readPorts output = .error (.count found) ↔
      InOrder output found ∧ (∀ ports, ¬ OnePerTransport (nodePortSet output) ports) ∧
        ¬ SameTransport (nodePortSet output)) ∧
    ∀ other : String,
      Relation.EqvGen Varies (Text.lines output.toList) (Text.lines other.toList) →
      SameOutcome (readPorts output) (readPorts other) := by
  have named : ∀ found, InOrder output found ↔
      (nodePorts output.toList).map String.ofList = found := by
    refine fun found => ⟨(inOrder_nodePorts output).unique, ?_⟩
    rintro rfl
    exact inOrder_nodePorts output
  refine ⟨?_, ?_, ?_, fun other h => sameOutcome_of_nodePortSet (nodePortSet_eq_of_varies h)⟩
  · intro ports
    rcases readPorts_cases output with ⟨ports', read, one⟩ | ⟨read, same⟩ | ⟨read, none, -⟩
    · rw [read, Except.ok.injEq]
      exact ⟨fun eq => eq ▸ one, one.unique⟩
    · rw [read]
      exact ⟨nofun, fun one => absurd same one.not_sameTransport⟩
    · rw [read]
      exact ⟨nofun, fun one => absurd one (none ports)⟩
  · intro found
    rw [named]
    rcases readPorts_cases output with ⟨ports', read, one⟩ | ⟨read, same⟩ | ⟨read, -, apart⟩
    · rw [read]
      exact ⟨nofun, fun h => absurd h.2 one.not_sameTransport⟩
    · rw [read, Except.error.injEq, PortError.clash.injEq, and_iff_left same]
    · rw [read]
      exact ⟨nofun, fun h => absurd h.2 apart⟩
  · intro found
    rw [named]
    rcases readPorts_cases output with ⟨ports', read, one⟩ | ⟨read, same⟩ | ⟨read, neither⟩
    · rw [read]
      exact ⟨nofun, fun h => absurd one (h.2.1 ports')⟩
    · rw [read]
      exact ⟨nofun, fun h => absurd same h.2.2⟩
    · rw [read, Except.error.injEq, PortError.count.injEq, and_iff_left neither]

/-- A listing in another order, with a further binding of a port and one that is no node's. -/
theorem readPorts_iff_bound :
    readPorts "7/tcp -> 0.0.0.0:7001\n9/tcp -> 0.0.0.0:9001\n" = .ok ⟨"7001", "9001"⟩ ∧
      SameOutcome (readPorts "7/tcp -> 0.0.0.0:7001\n9/tcp -> 0.0.0.0:9001\n")
        (readPorts ("5/tcp -> :::5001\n9/tcp -> [::]:9001\n" ++
          "9/tcp -> 0.0.0.0:9001\n7/tcp -> 0.0.0.0:7001")) := by
  obtain ⟨-, -, -, same⟩ := readPorts_iff "7/tcp -> 0.0.0.0:7001\n9/tcp -> 0.0.0.0:9001\n"
  refine ⟨by decide +kernel, same _ ?_⟩
  have lines : Text.lines "7/tcp -> 0.0.0.0:7001\n9/tcp -> 0.0.0.0:9001\n".toList =
      ["7/tcp -> 0.0.0.0:7001".toList, "9/tcp -> 0.0.0.0:9001".toList] := by
    decide
  have lines' : Text.lines ("5/tcp -> :::5001\n9/tcp -> [::]:9001\n" ++
      "9/tcp -> 0.0.0.0:9001\n7/tcp -> 0.0.0.0:7001").toList =
      ["5/tcp -> :::5001".toList, "9/tcp -> [::]:9001".toList, "9/tcp -> 0.0.0.0:9001".toList,
        "7/tcp -> 0.0.0.0:7001".toList] := by
    decide
  have publishes : Publishes "9/tcp -> 0.0.0.0:9001".toList "9001".toList :=
    nodePort?_eq_some.1 (by decide)
  have again : Publishes "9/tcp -> [::]:9001".toList "9001".toList :=
    nodePort?_eq_some.1 (by decide)
  have none : nodePort? "5/tcp -> :::5001".toList = Option.none := by decide
  have unrelated : ∀ port, ¬ Publishes "5/tcp -> :::5001".toList port := fun port h =>
    absurd ((nodePort?_eq_some.2 h).symm.trans none) nofun
  rw [lines, lines']
  refine .trans _ _ _ (.rel _ _ (.reordered (List.Perm.swap _ _ []))) ?_
  exact .trans _ _ _ (.rel _ _ (.rebound List.mem_cons_self publishes again))
    (.rel _ _ (.unrelated unrelated))

end Container
end Rollout
