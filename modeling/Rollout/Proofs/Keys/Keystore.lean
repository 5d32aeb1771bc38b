/-
# What a keystore text says

A keypair has a line of its own, and its position is the number of such lines before it.
The rest of a text is layout:

| in a text | holds |
| --- | --- |
| a blank line | nothing |
| a line whose first character after blanks is `#` | nothing |
| blanks around a line, a carriage return at its end among them | nothing |
| any other line | a keypair |

A carriage return at the end of a line is trimmed away, so the keypairs may be read off the
pieces between line feeds (`keypairLines_eq`), and what stands on the two sides of a line
feed is read on its own (`keypairLines_append_feed`). From this it follows what each kind of
layout holds (`Padded.keypairLines_eq`). Conversely every text is, but for layout, the row
of its keypairs with a line feed after each (`relaid_lined`).

Main statement: `ofText_reads`.
-/

import Mathlib.Data.List.Basic
import Mathlib.Logic.Relation
import Rollout.Keys.Keystore
import Rollout.Proofs.Text.Lines
import Rollout.Proofs.Text.Trim

namespace Rollout
namespace Keystore

open Text (isBlank trim pieces Trimmed)

/-- What a line of a keystore can hold. -/
structure IsEntry (key : List Char) : Prop where
  nonempty : key ≠ []
  trimmed : Trimmed key
  oneLine : '\n' ∉ key
  noComment : key.head? ≠ some '#'

/-- A line is a keypair unless it is empty or starts with a number sign. -/
theorem isKeypair_iff {line : List Char} :
    isKeypair line = true ↔ line ≠ [] ∧ line.head? ≠ some '#' := by
  cases line <;> simp [isKeypair]

/-! ### Keypairs between line feeds -/

/-- A carriage return at the end of a line is trimmed anyway. -/
theorem trim_dropReturn (line : List Char) : trim (Text.dropReturn line) = trim line := by
  have blank : ∀ c ∈ ['\r'], isBlank c = true := List.forall_mem_singleton.2 (by decide)
  rcases Text.dropReturn_eq_or line with same | shorter
  · rw [same]
  · conv => rhs; rw [shorter]
    rw [Text.trim_append blank]

/-- Whether the last line is ended makes no difference to the keypairs on the lines. -/
theorem filter_linesOfPieces (ps : List (List Char)) :
    ((Text.linesOfPieces ps).map trim).filter isKeypair = (ps.map trim).filter isKeypair := by
  fun_induction Text.linesOfPieces ps with
  | case1 => rfl
  | case2 last empty =>
    rw [List.isEmpty_iff.1 empty]
    rfl
  | case3 last _ => rfl
  | case4 p ps _ ih =>
    rw [List.map_cons, List.map_cons, trim_dropReturn, List.filter_cons, List.filter_cons, ih]

/-- The keypairs are what the line feeds leave, trimmed. -/
theorem keypairLines_eq (cs : List Char) :
    keypairLines cs = ((pieces '\n' cs).map trim).filter isKeypair :=
  filter_linesOfPieces _

theorem keypairLines_nil : keypairLines [] = [] :=
  rfl

/-- **The two sides of a line feed** are read on their own. -/
theorem keypairLines_append_feed (cs ds : List Char) :
    keypairLines (cs ++ '\n' :: ds) = keypairLines cs ++ keypairLines ds := by
  simp only [keypairLines_eq, Text.pieces_append_sep, List.map_append, List.filter_append]

/-- A line feed at the start adds no keypair. -/
theorem keypairLines_feed (cs : List Char) : keypairLines ('\n' :: cs) = keypairLines cs :=
  keypairLines_append_feed [] cs

/-- A line feed at the end adds no keypair. -/
theorem keypairLines_concat_feed (cs : List Char) :
    keypairLines (cs ++ ['\n']) = keypairLines cs := by
  rw [keypairLines_append_feed, keypairLines_nil, List.append_nil]

/-- A text without line feeds is one keypair or none. -/
theorem keypairLines_of_not_mem {line : List Char} (h : '\n' ∉ line) :
    keypairLines line = [trim line].filter isKeypair := by
  rw [keypairLines_eq, Text.pieces_of_not_mem h, List.map_singleton]

/-- **Every keypair** is an entry. -/
theorem isEntry_of_mem {cs key : List Char} (h : key ∈ keypairLines cs) : IsEntry key := by
  rw [keypairLines_eq, List.mem_filter, List.mem_map] at h
  obtain ⟨⟨line, hline, rfl⟩, held⟩ := h
  obtain ⟨nonempty, noComment⟩ := isKeypair_iff.1 held
  refine ⟨nonempty, Text.trimmed_trim line, fun feed => ?_, noComment⟩
  exact Text.not_mem_of_mem_pieces line hline ((Text.trimsTo_trim line).subset feed)

/-- A keypair has no blanks around it. -/
theorem IsEntry.trim_eq {key : List Char} (h : IsEntry key) : trim key = key :=
  Text.trim_eq_iff.2 ⟨h.trimmed, [], [], by simp, nofun, nofun⟩

/-- **Entries that are joined by line feeds** are read back. -/
theorem keypairLines_intercalate {keys : List (List Char)} (h : ∀ key ∈ keys, IsEntry key) :
    keypairLines (['\n'].intercalate keys) = keys := by
  by_cases empty : keys = []
  · rw [empty]
    rfl
  · rw [keypairLines_eq, Text.pieces_intercalate (fun key hkey => (h key hkey).oneLine) empty,
      List.map_congr_left (fun key hkey => (h key hkey).trim_eq), List.map_id', List.filter_eq_self]
    exact fun key hkey => isKeypair_iff.2 ⟨(h key hkey).nonempty, (h key hkey).noComment⟩

/-! ### Layout -/

/-- The text is empty or ends with a line feed, so what comes behind it starts a line. -/
def EndsLine (before : List Char) : Prop :=
  ∀ c, before.getLast? = some c → c = '\n'

/-- The text is empty or begins with a line feed, so what comes before it ends a line. -/
def FollowsLine (after : List Char) : Prop :=
  ∀ c, after.head? = some c → c = '\n'

/-- The second text is the first with one piece of layout put in: a line without a keypair,
a carriage return before a line feed, or blanks around a line. -/
inductive Padded : List Char → List Char → Prop where
  | blankLine {before blanks after : List Char} (start : EndsLine before)
    (blank : ∀ c ∈ blanks, isBlank c = true) :
    Padded (before ++ after) (before ++ blanks ++ '\n' :: after)
  | comment {before indent note after : List Char} (start : EndsLine before)
    (blank : ∀ c ∈ indent, isBlank c = true) (oneLine : '\n' ∉ note) :
    Padded (before ++ after) (before ++ (indent ++ '#' :: note) ++ '\n' :: after)
  | carriageReturn {before after : List Char} :
    Padded (before ++ '\n' :: after) (before ++ '\r' :: '\n' :: after)
  | leading {before blanks after : List Char} (start : EndsLine before)
    (blank : ∀ c ∈ blanks, isBlank c = true) :
    Padded (before ++ after) (before ++ blanks ++ after)
  | trailing {before blanks after : List Char} (stop : FollowsLine after)
    (blank : ∀ c ∈ blanks, isBlank c = true) :
    Padded (before ++ after) (before ++ blanks ++ after)

/-- The texts are one but for layout that is put in or taken out. -/
def Relaid : List Char → List Char → Prop :=
  Relation.EqvGen Padded

theorem endsLine_nil : EndsLine [] :=
  nofun

/-- What starts a line is read on its own. -/
theorem EndsLine.keypairLines_append {before : List Char} (h : EndsLine before) (cs : List Char) :
    keypairLines (before ++ cs) = keypairLines before ++ keypairLines cs := by
  rcases List.eq_nil_or_concat' before with rfl | ⟨front, c, rfl⟩
  · rfl
  · obtain rfl := h c List.getLast?_concat
    rw [List.append_assoc, List.singleton_append, keypairLines_append_feed,
      keypairLines_concat_feed]

/-- What ends a line is read on its own. -/
theorem FollowsLine.keypairLines_append {after : List Char} (h : FollowsLine after)
    (cs : List Char) : keypairLines (cs ++ after) = keypairLines cs ++ keypairLines after := by
  cases after with
  | nil => rw [List.append_nil, keypairLines_nil, List.append_nil]
  | cons c after =>
    obtain rfl := h c rfl
    rw [keypairLines_append_feed, keypairLines_feed]

/-- A blank at the start makes no difference, be it part of a line or a line feed. -/
theorem keypairLines_cons_blank {c : Char} (h : isBlank c = true) (cs : List Char) :
    keypairLines (c :: cs) = keypairLines cs := by
  by_cases feed : c = '\n'
  · rw [feed, keypairLines_feed]
  · obtain ⟨p, ps, split⟩ := List.exists_cons_of_ne_nil (Text.pieces_ne_nil '\n' cs)
    have trimmed : trim (c :: p) = trim p := by
      rw [trim, trim, Text.trimStart, List.dropWhile_cons_of_pos h, ← Text.trimStart]
    rw [keypairLines_eq, keypairLines_eq, pieces, if_neg feed, split, List.map_cons, List.map_cons,
      trimmed]

/-- Blanks at the start make no difference. -/
theorem keypairLines_blanks_append {blanks : List Char} (h : ∀ c ∈ blanks, isBlank c = true)
    (cs : List Char) : keypairLines (blanks ++ cs) = keypairLines cs := by
  induction blanks with
  | nil => rfl
  | cons c blanks ih =>
    rw [List.forall_mem_cons] at h
    rw [List.cons_append, keypairLines_cons_blank h.1, ih h.2]

/-- The last line of a text starts a line, and has no line feed. -/
theorem exists_lastLine (cs : List Char) :
    ∃ front line, cs = front ++ line ∧ EndsLine front ∧ '\n' ∉ line := by
  rcases Text.getD_afterLast?_eq_iff.1 (rfl : (Text.afterLast? '\n' cs).getD cs = _) with
    ⟨front, split, oneLine⟩ | ⟨oneLine, -⟩
  · refine ⟨front ++ ['\n'], _, ?_, fun c hc => ?_, oneLine⟩
    · rw [List.append_assoc]
      exact split
    · rw [List.getLast?_concat] at hc
      exact (Option.some.inj hc).symm
  · exact ⟨[], cs, rfl, nofun, oneLine⟩

/-- A blank at the end makes no difference, be it part of a line or a line feed. -/
theorem keypairLines_concat_blank {c : Char} (h : isBlank c = true) (cs : List Char) :
    keypairLines (cs ++ [c]) = keypairLines cs := by
  by_cases feed : c = '\n'
  · rw [feed, keypairLines_concat_feed]
  · obtain ⟨front, line, rfl, start, oneLine⟩ := exists_lastLine cs
    have longer : '\n' ∉ line ++ [c] := by
      rw [List.mem_append, List.mem_singleton, not_or]
      exact ⟨oneLine, Ne.symm feed⟩
    rw [List.append_assoc, start.keypairLines_append, start.keypairLines_append,
      keypairLines_of_not_mem oneLine, keypairLines_of_not_mem longer,
      Text.trim_append (List.forall_mem_singleton.2 h)]

/-- Blanks at the end make no difference. -/
theorem keypairLines_append_blanks {blanks : List Char} (h : ∀ c ∈ blanks, isBlank c = true)
    (cs : List Char) : keypairLines (cs ++ blanks) = keypairLines cs := by
  induction blanks generalizing cs with
  | nil => rw [List.append_nil]
  | cons c blanks ih =>
    rw [List.forall_mem_cons] at h
    rw [List.append_cons, ih h.2, keypairLines_concat_blank h.1]

/-- A comment is trimmed to one, or to nothing. -/
theorem isKeypair_trim_comment (note : List Char) : isKeypair (trim ('#' :: note)) = false := by
  have start : Text.trimStart ('#' :: note) = '#' :: note :=
    Text.trimStart_eq_self (by rintro c ⟨⟩; decide)
  have beginning := Text.prefix_of_trimEnd ('#' :: note)
  rw [trim, start]
  rcases List.prefix_cons_iff.1 beginning with nil | ⟨rest, comment, -⟩
  · rw [nil]
    rfl
  · rw [comment]
    rfl

/-- A comment is no keypair, however far it is indented. -/
theorem keypairLines_comment {indent note : List Char} (blank : ∀ c ∈ indent, isBlank c = true)
    (oneLine : '\n' ∉ note) : keypairLines (indent ++ '#' :: note) = [] := by
  have oneLine' : '\n' ∉ '#' :: note := List.not_mem_cons_of_ne_of_not_mem (by decide) oneLine
  rw [keypairLines_blanks_append blank, keypairLines_of_not_mem oneLine',
    List.filter_cons_of_neg (by rw [isKeypair_trim_comment]; decide), List.filter_nil]

/-- **Layout holds no keypair.** -/
theorem Padded.keypairLines_eq {plain padded : List Char} (h : Padded plain padded) :
    keypairLines padded = keypairLines plain := by
  cases h with
  | blankLine start blank =>
    rw [keypairLines_append_feed, keypairLines_append_blanks blank, start.keypairLines_append]
  | comment start blank oneLine =>
    rw [keypairLines_append_feed, start.keypairLines_append, keypairLines_comment blank oneLine,
      List.append_nil, start.keypairLines_append]
  | @carriageReturn before after =>
    rw [List.append_cons, keypairLines_append_feed, keypairLines_append_feed,
      keypairLines_concat_blank (by decide)]
  | leading start blank =>
    rw [List.append_assoc, start.keypairLines_append, keypairLines_blanks_append blank,
      start.keypairLines_append]
  | trailing stop blank =>
    rw [stop.keypairLines_append, keypairLines_append_blanks blank, stop.keypairLines_append]

/-! ### A text without layout -/

/-- The row of keypairs, with a line feed after each. -/
def lined (keys : List (List Char)) : List Char :=
  keys.flatMap (· ++ ['\n'])

/-- Behind lines that are ended a new line begins. -/
theorem EndsLine.append_lined {before : List Char} (h : EndsLine before)
    (keys : List (List Char)) : EndsLine (before ++ lined keys) := by
  rcases List.eq_nil_or_concat' keys with rfl | ⟨front, key, rfl⟩
  · rwa [lined, List.flatMap_nil, List.append_nil]
  · intro c hc
    rw [lined, List.flatMap_append, List.flatMap_singleton, ← List.append_assoc,
      ← List.append_assoc, List.getLast?_concat] at hc
    exact (Option.some.inj hc).symm

/-- What has been padded can be laid out as it was. -/
theorem Padded.undo {plain padded : List Char} (h : Padded plain padded) : Relaid padded plain :=
  .symm _ _ (.rel _ _ h)

/-- Layouts of one text are layouts of one another. -/
theorem Relaid.trans {cs ds es : List Char} (h : Relaid cs ds) (h' : Relaid ds es) :
    Relaid cs es :=
  Relation.EqvGen.trans _ _ _ h h'

/-- A line is, but for layout, the keypair on it, or nothing. -/
theorem relaid_line {before line : List Char} (start : EndsLine before) (oneLine : '\n' ∉ line)
    (after : List Char) : Relaid (before ++ line ++ '\n' :: after)
      (before ++ lined (keypairLines line) ++ after) := by
  obtain ⟨left, right, split, leftBlank, rightBlank⟩ := (Text.trimsTo_trim line).around
  rw [keypairLines_of_not_mem oneLine]
  generalize trim line = key at split ⊢
  subst split
  -- A line trims to nothing, to a comment or to a keypair, and only the last stays.
  cases key with
  | nil =>
    have blank : ∀ c ∈ left ++ [] ++ right, isBlank c = true := by
      rw [List.append_nil]
      exact List.forall_mem_append.2 ⟨leftBlank, rightBlank⟩
    have removed : Relaid (before ++ (left ++ [] ++ right) ++ '\n' :: after) (before ++ after) :=
      (Padded.blankLine start blank).undo
    simpa [lined, isKeypair] using removed
  | cons c key =>
    by_cases comment : c = '#'
    · subst comment
      have note : '\n' ∉ key ++ right := by
        simp only [List.mem_append, List.mem_cons, not_or] at oneLine ⊢
        exact ⟨oneLine.1.2.2, oneLine.2⟩
      have removed : Relaid (before ++ (left ++ '#' :: (key ++ right)) ++ '\n' :: after)
          (before ++ after) := (Padded.comment start leftBlank note).undo
      simpa [lined, isKeypair] using removed
    · have held : isKeypair (c :: key) = true := isKeypair_iff.2 ⟨by simp, by simpa using comment⟩
      have leading : Relaid (before ++ left ++ (c :: key ++ right ++ '\n' :: after))
          (before ++ (c :: key ++ right ++ '\n' :: after)) :=
        (Padded.leading start leftBlank).undo
      have trailing : Relaid (before ++ c :: key ++ right ++ '\n' :: after)
          (before ++ c :: key ++ '\n' :: after) :=
        (Padded.trailing (by rintro d ⟨⟩; rfl) rightBlank).undo
      rw [List.filter_cons_of_pos held, List.filter_nil]
      simp only [List.append_assoc] at leading trailing
      simpa [lined] using leading.trans trailing

/-- **A text is, but for layout, the row of its keypairs.** -/
theorem relaid_lined {before : List Char} (start : EndsLine before) (cs : List Char) :
    Relaid (before ++ cs) (before ++ lined (keypairLines cs)) := by
  by_cases feed : '\n' ∈ cs
  · obtain ⟨line, rest, split, oneLine⟩ := List.eq_append_cons_of_mem feed
    have shorter : rest.length < cs.length := by
      rw [split, List.length_append, List.length_cons]
      omega
    have first := relaid_line start oneLine rest
    have others := relaid_lined (start.append_lined (keypairLines line)) rest
    rw [split, keypairLines_append_feed, lined, List.flatMap_append, ← lined, ← lined,
      ← List.append_assoc, ← List.append_assoc]
    exact first.trans others
  · -- A last line has no line feed to be taken for its end, so one is put in first.
    have ended : Padded (before ++ cs ++ []) (before ++ cs ++ ['\n'] ++ []) :=
      .trailing nofun (List.forall_mem_singleton.2 (by decide))
    have last := relaid_line start feed []
    simp only [List.append_nil] at ended last
    exact Relaid.trans (.rel _ _ ended) last
termination_by cs.length

/-- **Two texts hold the same keypairs** exactly when they differ in layout only. -/
theorem relaid_iff {cs ds : List Char} : Relaid cs ds ↔ keypairLines cs = keypairLines ds := by
  constructor
  · intro h
    induction h with
    | rel plain padded step => exact step.keypairLines_eq.symm
    | refl => rfl
    | symm _ _ _ ih => exact ih.symm
    | trans _ _ _ _ _ first second => exact first.trans second
  · intro same
    have left : Relaid cs (lined (keypairLines cs)) := relaid_lined endsLine_nil cs
    have right : Relaid ds (lined (keypairLines ds)) := relaid_lined endsLine_nil ds
    rw [same] at left
    exact left.trans (.symm _ _ right)

/-! ### Keystores of texts -/

/-- A keystore has the keypairs that it holds, at their positions. -/
theorem keypair_eq_ok {k : Keystore} {i : Nat} {key : String} :
    k.keypair i = .ok key ↔ k.get? i = some key := by
  rw [keypair]
  cases k.get? i <;> simp

/-- A keystore is its keypairs. -/
theorem eq_of_keypairs_eq {k l : Keystore} (h : k.keypairs = l.keypairs) : k = l := by
  cases k
  cases l
  exact congrArg mk h

/-- A keystore is known by the keypairs that it gives. -/
theorem eq_of_keypair_eq {k l : Keystore} (h : ∀ i, k.keypair i = l.keypair i) : k = l := by
  refine eq_of_keypairs_eq (List.ext_getElem? fun i => Option.ext fun key => ?_)
  change k.get? i = some key ↔ l.get? i = some key
  rw [← keypair_eq_ok, ← keypair_eq_ok, h i]

/-- Texts are one keystore when they have the same keypairs. -/
theorem ofText_eq_iff {a b : String} :
    ofText a = ofText b ↔ keypairLines a.toList = keypairLines b.toList := by
  rw [ofText, ofText, mk.injEq]
  exact List.map_inj_right fun _ _ => String.ofList_injective

/-- Every keypair of a text is trimmed, and is neither empty nor a comment. -/
theorem keypairs_isEntry (text : String) : ∀ key ∈ (ofText text).keypairs, IsEntry key.toList := by
  intro key h
  obtain ⟨line, hline, rfl⟩ := List.mem_map.1 h
  rw [String.toList_ofList]
  exact isEntry_of_mem hline

/-- **Keypairs on lines of their own are read back.** -/
theorem keypairs_intercalate {keys : List String} (h : ∀ key ∈ keys, IsEntry key.toList) :
    (ofText ("\n".intercalate keys)).keypairs = keys := by
  have feed : "\n".toList = ['\n'] := rfl
  rw [ofText, String.toList_intercalate, feed,
    keypairLines_intercalate (List.forall_mem_map.2 h), List.map_map]
  exact (List.map_congr_left fun key _ => String.ofList_toList).trans (List.map_id keys)

/-- **What a keystore text says.** For all texts and all lists of strings:

- what stands on the two sides of a line feed is read on its own;
- every keypair is an entry, and the keypairs joined by line feeds are read back;
- strings that are joined by line feeds are read back exactly when they are entries;
- two texts give the same keypair at every index, or the same failure, exactly when blank
  lines, comment lines, carriage returns at line ends and blanks around lines, put in or
  taken out, make one of the other. -/
theorem ofText_reads (a b : String) (keys : List String) :
    (ofText (a ++ "\n" ++ b)).keypairs = (ofText a).keypairs ++ (ofText b).keypairs ∧
    (∀ key ∈ (ofText a).keypairs, IsEntry key.toList) ∧
    ofText ("\n".intercalate (ofText a).keypairs) = ofText a ∧
    ((ofText ("\n".intercalate keys)).keypairs = keys ↔ ∀ key ∈ keys, IsEntry key.toList) ∧
    (Relaid a.toList b.toList ↔ ∀ i, (ofText a).keypair i = (ofText b).keypair i) := by
  refine ⟨?_, keypairs_isEntry a, eq_of_keypairs_eq (keypairs_intercalate (keypairs_isEntry a)),
    ⟨fun read => ?_, keypairs_intercalate⟩, fun relaid i => ?_, fun same => ?_⟩
  · have feed : (a ++ "\n" ++ b).toList = a.toList ++ '\n' :: b.toList := by simp
    rw [ofText, feed, keypairLines_append_feed, List.map_append]
    rfl
  · rw [← read]
    exact keypairs_isEntry _
  · rw [ofText_eq_iff.2 (relaid_iff.1 relaid)]
  · exact relaid_iff.2 (ofText_eq_iff.1 (eq_of_keypair_eq same))

/-- A comment between two keypairs moves neither. -/
theorem ofText_reads_commented :
    Relaid "key-0\nkey-1\n".toList "key-0\n  # spare\nkey-1\n".toList ∧
      (ofText "key-0\n  # spare\nkey-1\n").keypair 1 = .ok "key-1" ∧
      "key-1" ∈ (ofText "key-0\nkey-1\n").keypairs ∧ IsEntry "key-1".toList ∧
      (ofText ("\n".intercalate ["key-0", "key-1"])).keypairs = ["key-0", "key-1"] := by
  obtain ⟨-, entries, joined, -, same⟩ :=
    ofText_reads "key-0\nkey-1\n" "key-0\n  # spare\nkey-1\n" []
  have start : EndsLine "key-0\n".toList := by
    rintro c ⟨⟩
    rfl
  have relaid : Relaid "key-0\nkey-1\n".toList "key-0\n  # spare\nkey-1\n".toList :=
    .rel _ _ (@Padded.comment "key-0\n".toList "  ".toList " spare".toList "key-1\n".toList start
      (List.all_eq_true.1 (by decide)) (by decide))
  have mem : "key-1" ∈ (ofText "key-0\nkey-1\n").keypairs := by decide +kernel
  refine ⟨relaid, ?_, mem, entries _ mem, congrArg keypairs joined⟩
  rw [← same.1 relaid 1]
  rfl

end Keystore
end Rollout
