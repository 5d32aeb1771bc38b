/-
# The identity that a log reports

The last marked line of a log counts, as it reads without control sequences:

| the last marked line | the identity |
| --- | --- |
| has an equals sign, and after the last one not only blanks | the text there, trimmed |
| has an equals sign, and after the last one only blanks | none |
| has no equals sign | the whole line, trimmed |
| there is none | none |

The last marked line of the third kind carries no value, and is taken for one
all the same (`identity?_reports_iff`). Where control sequences stand makes no
difference (`identity?_coloured`), because stripping goes line by line.
-/

import Rollout.Container.Introspection
import Rollout.Proofs.Text.ControlSequence
import Rollout.Proofs.Text.Search
import Rollout.Proofs.Text.Trim

namespace Rollout
namespace Container

open Text (TrimsTo)
open Text.ControlSequence (strip Coloured)

/-! ### The last marked line -/

/-- The last line of a log that carries the marker once control sequences are
removed, as it reads then. -/
def LastMarked (logs line : List Char) : Prop :=
  ∃ before written after, Text.lines logs = before ++ written :: after ∧ strip written = line ∧
    identityMarker.toList <:+: line ∧ ∀ later ∈ after, ¬ identityMarker.toList <:+: strip later

/-- The marked line is the last that has the marker once it is stripped. -/
theorem markedLine?_eq (logs : List Char) : markedLine? logs =
    ((Text.lines logs).reverse.find? (Text.contains identityMarker.toList ∘ strip)).map strip := by
  rw [markedLine?, List.find?_map]

/-- **The line that is read** is the last one marked. -/
theorem markedLine?_eq_some {logs line : List Char} :
    markedLine? logs = some line ↔ LastMarked logs line := by
  simp only [markedLine?_eq, Option.map_eq_some_iff, List.find?_eq_some_iff_append,
    Function.comp_apply, Text.contains_iff, Bool.not_eq_true', Bool.eq_false_iff, ne_eq]
  constructor
  · rintro ⟨written, ⟨marked, as, bs, split, unmarked⟩, rfl⟩
    refine ⟨bs.reverse, written, as.reverse, ?_, rfl, marked,
      fun later h => unmarked later (List.mem_reverse.1 h)⟩
    rw [List.reverse_eq_append_iff.1 split, List.reverse_cons, List.append_assoc,
      List.singleton_append]
  · rintro ⟨before, written, after, split, rfl, marked, unmarked⟩
    refine ⟨written, ⟨marked, after.reverse, before.reverse, ?_,
      fun later h => unmarked later (List.mem_reverse.1 h)⟩, rfl⟩
    rw [split, List.reverse_append, List.reverse_cons, List.append_assoc, List.singleton_append]

/-- There is one last line that is marked. -/
theorem LastMarked.unique {logs line line' : List Char} (h : LastMarked logs line)
    (h' : LastMarked logs line') : line = line' :=
  Option.some.inj ((markedLine?_eq_some.2 h).symm.trans (markedLine?_eq_some.2 h'))

/-- Unmarked lines at the end make no difference. -/
theorem markedLine?_append {logs more : List Char} (ends : logs.getLast? = some '\n')
    (unmarked : ∀ line ∈ Text.lines more, ¬ identityMarker.toList <:+: strip line) :
    markedLine? (logs ++ more) = markedLine? logs := by
  have skipped : (Text.lines more).reverse.find? (Text.contains identityMarker.toList ∘ strip) =
      none := by
    refine List.find?_eq_none.2 fun line h => ?_
    rw [Function.comp_apply, Text.contains_iff]
    exact unmarked line (List.mem_reverse.1 h)
  rw [markedLine?_eq, markedLine?_eq, Text.lines_append ends, List.reverse_append,
    List.find?_append, skipped, Option.none_or]

/-! ### The value on a line -/

/-- What stands after the last equals sign of a line, without the blanks around
it. -/
def IsValue (line value : List Char) : Prop :=
  ∃ head tail, line = head ++ '=' :: tail ∧ '=' ∉ tail ∧ TrimsTo tail value

theorem IsValue.mem {line value : List Char} (h : IsValue line value) : '=' ∈ line := by
  obtain ⟨head, tail, rfl, -, -⟩ := h
  exact List.mem_append_right head List.mem_cons_self

/-- What stands behind the last `=` of a line is its value; a line without one stands there as a
whole. -/
theorem trimsTo_ending_iff {line id : List Char} :
    TrimsTo ((Text.afterLast? '=' line).getD line) id ↔
      IsValue line id ∨ '=' ∉ line ∧ TrimsTo line id := by
  constructor
  · intro value
    rcases Text.getD_afterLast?_eq_iff.1 (rfl : (Text.afterLast? '=' line).getD line = _) with
      ⟨head, split, free⟩ | ⟨absent, same⟩
    · exact .inl ⟨head, _, split, free, value⟩
    · exact .inr ⟨absent, same.symm ▸ value⟩
  · rintro (⟨head, tail, split, free, value⟩ | ⟨absent, value⟩)
    · rwa [Text.getD_afterLast?_eq_iff.2 (.inl ⟨head, split, free⟩)]
    · rwa [Text.getD_afterLast?_eq_iff.2 (.inr ⟨absent, rfl⟩)]

/-- A line gives its value as an identity, or itself where it has no value, unless that is empty. -/
theorem identityOnLine?_eq_some {line id : List Char} :
    identityOnLine? line = some id ↔
      (IsValue line id ∨ '=' ∉ line ∧ TrimsTo line id) ∧ id ≠ [] := by
  rw [identityOnLine?, ← trimsTo_ending_iff, ← Text.trim_eq_iff]
  split
  · rename_i nil
    rw [List.isEmpty_iff] at nil
    rw [nil]
    exact ⟨nofun, fun h => absurd h.1.symm h.2⟩
  · rename_i nonempty
    rw [Option.some.injEq]
    refine ⟨fun h => ⟨h, ?_⟩, And.left⟩
    rintro rfl
    exact nonempty (List.isEmpty_iff.2 h)

/-- A log reports an identity when its last marked line has a value that is not
empty. -/
def Reports (logs id : List Char) : Prop :=
  ∃ line, LastMarked logs line ∧ IsValue line id ∧ id ≠ []

/-- **A log gives the identity** of its last marked line. -/
theorem identity?_eq_some {logs id : String} : identity? logs = some id ↔
    ∃ line, LastMarked logs.toList line ∧ (IsValue line id.toList ∨
      '=' ∉ line ∧ TrimsTo line id.toList) ∧ id.toList ≠ [] := by
  have read : identity? logs = some id ↔
      ∃ line, markedLine? logs.toList = some line ∧ identityOnLine? line = some id.toList := by
    rw [identity?]
    cases markedLine? logs.toList with
    | none => simp
    | some line =>
      rw [Option.map_eq_some_iff]
      constructor
      · rintro ⟨cs, hcs, rfl⟩
        exact ⟨line, rfl, by rw [hcs, String.toList_ofList]⟩
      · rintro ⟨_, ⟨⟩, h⟩
        exact ⟨id.toList, h, String.ofList_toList⟩
  simp only [read, markedLine?_eq_some, identityOnLine?_eq_some]

/-- A marked line is not blank. -/
theorem LastMarked.trim_ne_nil {logs line : List Char} (h : LastMarked logs line) :
    Text.trim line ≠ [] := by
  obtain ⟨-, written, -, -, -, marked, -⟩ := h
  intro nil
  obtain ⟨left, right, split, leftBlank, rightBlank⟩ := (Text.trim_eq_iff.1 nil).around
  have mem : 's' ∈ line := marked.subset (by decide)
  rw [split, List.append_nil] at mem
  have blank : Text.isBlank 's' = true :=
    (List.mem_append.1 mem).elim (leftBlank 's') (rightBlank 's')
  exact absurd blank (by decide)

/-- **A last marked line without an equals sign** is taken for an identity. -/
theorem exists_identity_of_not_mem {logs : String} {line : List Char}
    (last : LastMarked logs.toList line) (absent : '=' ∉ line) :
    ∃ id, identity? logs = some id ∧ TrimsTo line id.toList := by
  have trims : TrimsTo line (String.ofList (Text.trim line)).toList := by
    rw [String.toList_ofList]
    exact Text.trimsTo_trim line
  refine ⟨String.ofList (Text.trim line), ?_, trims⟩
  refine identity?_eq_some.2 ⟨line, last, .inr ⟨absent, trims⟩, ?_⟩
  rw [String.toList_ofList]
  exact last.trim_ne_nil

/-- **What a log is taken to report.** For every log:

- the identity that is read is the reported one, or none where none is reported, exactly when
  the last marked line, if there is one, has an equals sign;
- without the sign the whole line, trimmed, is taken for an identity;
- a container with such an identity passes for ready, as one that reports does, and no other;
- unmarked lines that are appended after a line feed change nothing. -/
theorem identity?_reports_iff (logs : String) :
    ((∀ id : String, identity? logs = some id ↔ Reports logs.toList id.toList) ↔
      ∀ line, LastMarked logs.toList line → '=' ∈ line) ∧
    (∀ line, LastMarked logs.toList line → '=' ∉ line →
      ∃ id, identity? logs = some id ∧ TrimsTo line id.toList) ∧
    (∀ container ports, (∃ info, ready (.ok ⟨container, identity? logs, ports⟩) = .ok info) ↔
      (∃ id : String, Reports logs.toList id.toList) ∨
        ∃ line, LastMarked logs.toList line ∧ '=' ∉ line) ∧
    ∀ more : String, logs.toList.getLast? = some '\n' →
      (∀ line ∈ Text.lines more.toList, ¬ identityMarker.toList <:+: strip line) →
      identity? (logs ++ more) = identity? logs := by
  have reported : ∀ id : String, Reports logs.toList id.toList → identity? logs = some id := by
    rintro id ⟨line, last, value, nonempty⟩
    exact identity?_eq_some.2 ⟨line, last, .inl value, nonempty⟩
  have read : ∀ id : String, identity? logs = some id →
      Reports logs.toList id.toList ∨ ∃ line, LastMarked logs.toList line ∧ '=' ∉ line := by
    intro id h
    obtain ⟨line, last, value | ⟨absent, -⟩, nonempty⟩ := identity?_eq_some.1 h
    · exact .inl ⟨line, last, value, nonempty⟩
    · exact .inr ⟨line, last, absent⟩
  refine ⟨⟨fun specified line last => ?_, fun signed id => ⟨fun h => ?_, reported id⟩⟩, ?_, ?_, ?_⟩
  · -- A line without the sign is taken for an identity, which no log reports.
    refine Decidable.byContradiction fun absent => ?_
    obtain ⟨id, h, -⟩ := exists_identity_of_not_mem last absent
    obtain ⟨line', last', value, -⟩ := (specified id).1 h
    exact absent (last.unique last' ▸ value.mem)
  · rcases read id h with reports | ⟨line, last, absent⟩
    · exact reports
    · exact absurd (signed line last) absent
  · exact fun line last absent => exists_identity_of_not_mem last absent
  · intro container ports
    have passes : (∃ info, ready (.ok ⟨container, identity? logs, ports⟩) = .ok info) ↔
        ∃ id, identity? logs = some id := by
      rw [← Option.isSome_iff_exists, ready]
      split <;> simp_all
    rw [passes]
    constructor
    · rintro ⟨id, h⟩
      exact (read id h).imp_left fun reports => ⟨id, reports⟩
    · rintro (⟨id, reports⟩ | ⟨line, last, absent⟩)
      · exact ⟨id, reported id reports⟩
      · obtain ⟨id, h, -⟩ := exists_identity_of_not_mem last absent
        exact ⟨id, h⟩
  · intro more ends unmarked
    rw [identity?, identity?, String.toList_append, markedLine?_append ends unmarked]

/-- After a restart the later identity counts, and what is logged behind it does not. -/
theorem identity?_reports_iff_restarted :
    (∀ id : String, identity? "server peer id = P\n\x1b[1mserver peer id\x1b[0m = Q\n" = some id ↔
      Reports "server peer id = P\n\x1b[1mserver peer id\x1b[0m = Q\n".toList id.toList) ∧
    identity? ("server peer id = P\n\x1b[1mserver peer id\x1b[0m = Q\n" ++ "id = R\n") =
      some "Q" := by
  obtain ⟨specified, -, -, appended⟩ :=
    identity?_reports_iff "server peer id = P\n\x1b[1mserver peer id\x1b[0m = Q\n"
  have last : LastMarked "server peer id = P\n\x1b[1mserver peer id\x1b[0m = Q\n".toList
      "server peer id = Q".toList :=
    markedLine?_eq_some.1 (by decide +kernel)
  constructor
  · exact specified.2 fun line h => h.unique last ▸ (by decide)
  · have unmarked : ∀ line ∈ Text.lines "id = R\n".toList,
        ¬ identityMarker.toList <:+: strip line := by
      simp only [← Text.contains_iff]
      decide +kernel
    rw [appended "id = R\n" (by decide) unmarked]
    decide +kernel

/-- A line without a value is taken for an identity, which its log does not report. -/
theorem identity?_valueless :
    identity? "[INFO] loading server peer id\n" = some "[INFO] loading server peer id" ∧
      ∀ id, ¬ Reports "[INFO] loading server peer id\n".toList id := by
  refine ⟨by decide +kernel, ?_⟩
  have last : LastMarked "[INFO] loading server peer id\n".toList
      "[INFO] loading server peer id".toList :=
    markedLine?_eq_some.1 (by decide +kernel)
  rintro id ⟨line, h, value, -⟩
  have sign := value.mem
  rw [h.unique last] at sign
  exact absurd sign (by decide)

/-! ### Control sequences -/

/-- The identity on a line, if the line is marked. -/
def markedIdentity? (line : List Char) : Option (Option (List Char)) :=
  if Text.contains identityMarker.toList line then some (identityOnLine? line) else none

/-- To look for the first element that a function gives a result for is to look for the first
whose image passes, where the function tests its image. -/
theorem findSome?_ite {α β γ : Type} (p : β → Bool) (f : α → β) (g : β → γ) (l : List α) :
    l.findSome? (fun a => if p (f a) then some (g (f a)) else none) =
      ((l.map f).find? p).map g := by
  induction l with
  | nil => rfl
  | cons a l ih =>
    rw [List.findSome?_cons, List.map_cons, List.find?_cons, ih]
    cases p (f a) <;> rfl

/-- A carriage return at the end of a line makes no difference. -/
theorem markedIdentity?_return (line : List Char) :
    markedIdentity? (line ++ ['\r']) = markedIdentity? line := by
  have blank : ∀ c ∈ ['\r'], Text.isBlank c = true := List.forall_mem_singleton.2 (by decide)
  rw [markedIdentity?, markedIdentity?, Text.contains_concat (by decide), identityOnLine?,
    identityOnLine?, Text.getD_afterLast?_append (by decide), Text.trim_append blank]

/-- A carriage return before the end of a line makes no difference to the identity on it. -/
theorem markedIdentity?_strip_dropReturn (line : List Char) :
    markedIdentity? (strip (Text.dropReturn line)) = markedIdentity? (strip line) := by
  rcases Text.dropReturn_eq_or line with same | split
  · rw [same]
  · conv => rhs; rw [split]
    rw [Text.ControlSequence.strip_append_break Text.ControlSequence.isBreak_return,
      Text.ControlSequence.strip_nil, markedIdentity?_return]

/-- Lines and the pieces between line feeds show the same identity. -/
theorem findSome?_linesOfPieces (ps : List (List Char)) :
    (Text.linesOfPieces ps).reverse.findSome? (markedIdentity? ∘ strip) =
      ps.reverse.findSome? (markedIdentity? ∘ strip) := by
  have empty : markedIdentity? (strip []) = none := by
    rw [Text.ControlSequence.strip_nil]
    decide
  fun_induction Text.linesOfPieces ps with
  | case1 => rfl
  | case2 last h =>
    rw [List.isEmpty_iff.1 h]
    simp [empty]
  | case3 last h => rfl
  | case4 p ps _ ih =>
    rw [List.reverse_cons, List.reverse_cons, List.findSome?_append, List.findSome?_append, ih]
    simp only [List.findSome?_singleton, Function.comp_apply, markedIdentity?_strip_dropReturn]

/-- **The identity depends on the stripped log only.** -/
theorem identity?_eq_stripped (logs : String) : identity? logs =
    ((Text.pieces '\n' (strip logs.toList)).reverse.findSome? markedIdentity?).join.map
      String.ofList := by
  have found : (markedLine? logs.toList).map identityOnLine? =
      (Text.pieces '\n' (strip logs.toList)).reverse.findSome? markedIdentity? := by
    rw [Text.ControlSequence.pieces_strip Text.ControlSequence.isBreak_lineFeed, ← List.map_reverse,
      List.findSome?_map, ← findSome?_linesOfPieces]
    exact (findSome?_ite _ strip _ _).symm
  rw [← found, identity?]
  cases markedLine? logs.toList <;> rfl

/-- **Colouring never changes the identity.** Whatever complete control sequences are
put into a text without escapes, and wherever, stripping gives the text back, and the
identity stays. -/
theorem identity?_coloured {plain coloured : String}
    (free : Text.ControlSequence.escape ∉ plain.toList)
    (put : Coloured plain.toList coloured.toList) :
    strip coloured.toList = plain.toList ∧ identity? coloured = identity? plain := by
  have stripped := put.strip_eq free
  have plain' := Text.ControlSequence.strip_of_not_mem free
  exact ⟨stripped, by rw [identity?_eq_stripped, identity?_eq_stripped, stripped, plain']⟩

/-- Sequences in the marker, around the identity, and on both sides of a line end. -/
theorem identity?_coloured_bright :
    strip "up\nserver pe\x1b[0;32mer id = \x1b[?25h\x1b[ qP\r\x1b[m\n\x1b[0m".toList =
        "up\nserver peer id = P\r\n".toList ∧
      identity? "up\nserver pe\x1b[0;32mer id = \x1b[?25h\x1b[ qP\r\x1b[m\n\x1b[0m" =
        identity? "up\nserver peer id = P\r\n" ∧
      identity? "up\nserver peer id = P\r\n" = some "P" := by
  have plain : strip
      "up\nserver pe\x1b[0;32mer id = \x1b[?25h\x1b[ qP\r\x1b[m\n\x1b[0m".toList =
        "up\nserver peer id = P\r\n".toList := by
    decide +kernel
  obtain ⟨stripped, same⟩ := identity?_coloured (by decide)
    (plain ▸ Text.ControlSequence.coloured_strip
      "up\nserver pe\x1b[0;32mer id = \x1b[?25h\x1b[ qP\r\x1b[m\n\x1b[0m".toList)
  exact ⟨stripped, same, by decide +kernel⟩

end Container
end Rollout
