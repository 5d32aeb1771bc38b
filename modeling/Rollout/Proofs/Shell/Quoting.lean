/-
# Exported variables survive the shell

A variable is exported in front of a command as `export NAME='value'; command`,
with every single quote of the value written as `'\''`. The shell reads

| written | read as |
| --- | --- |
| the quoted form of a value, anywhere in a word | the characters of the value |
| `NAME='value'` | one word, if the name is an identifier |
| `export …; command` | `export`, one word for each variable, `;`, and the command as it would be alone |

Main statement: `withEnvironment_read`. A value ends neither its word nor the
command, so none of them can make a command of its own.
-/

import Rollout.Deployment.Host
import Rollout.Proofs.Shell.Words

namespace Rollout
namespace Shell

variable {w : List Letter} {command : String} {environment : List (String × String)}

/-! ### Quoted values -/

/-- In single quotes the quoted form of a value adds its characters, and the quote
after it ends the quotes. -/
theorem Reading.read_single (ts : List Token) (value : List Char) :
    (Reading.mk ts (some w) .single).read
      ((value.flatMap fun c => if c = '\'' then ['\'', '\\', '\'', '\''] else [c]) ++ ['\'']) =
      ⟨ts, some (w ++ letters value), .plain⟩ := by
  induction value generalizing w with
  | nil => simp [letters, feed, within]
  | cons c value ih =>
    have first : (Reading.mk ts (some w) .single).read
        (if c = '\'' then ['\'', '\\', '\'', '\''] else [c]) =
        ⟨ts, some (w ++ [.literal c]), .single⟩ := by
      split_ifs with quote
      · rw [quote]
        rfl
      · rw [read_cons, read_nil, feed, if_neg quote]
        rfl
    rw [List.flatMap_cons, List.append_assoc, read_append, first, ih, letters, letters,
      List.map_cons, List.append_assoc, List.singleton_append]

/-- **The quoted form of a value** adds its characters to the word. -/
theorem Reading.read_quoteChars (ts : List Token) (w : Option (List Letter)) (value : List Char) :
    (Reading.mk ts w .plain).read (quoteChars value) =
      ⟨ts, some (w.getD [] ++ letters value), .plain⟩ := by
  have opened : (Reading.mk ts w .plain).feed '\'' = ⟨ts, some (w.getD []), .single⟩ := rfl
  rw [quoteChars, List.cons_append, read_cons, opened, read_single]

theorem toList_quote (value : String) : (quote value).toList = quoteChars value.toList :=
  String.toList_ofList

/-- **A quoted value is read as one word**, which is the value. -/
theorem tokens?_quote (value : String) : tokens? (quote value) = some [.ofText value] := by
  rw [tokens?, toList_quote, Reading.start, Reading.read_quoteChars]
  rfl

/-- After a command the quoted form of a value is one more word. -/
theorem Complete.tokens?_quote {ts : List Token} (h : Complete command ts) (value : String) :
    tokens? (command ++ " " ++ quote value) = some (ts ++ [.ofText value]) := by
  rw [tokens?, h.read_append, toList_quote, Reading.read_quoteChars]
  rfl

/-- Different texts are different words. -/
theorem Token.ofText_injective : Function.Injective Token.ofText := fun _ _ h =>
  String.toList_injective (Reading.letters_injective (Token.word.inj h))

/-! ### Variables -/

/-- The character may stand in an identifier. -/
def isNameChar (c : Char) : Bool :=
  c.isAlphanum || c == '_'

/-- The text is an identifier. -/
structure IsName (s : String) : Prop where
  chars : ∀ c ∈ s.toList, isNameChar c
  starts : ∃ c, s.toList.head? = some c ∧ ¬ c.isDigit

instance (s : String) : Decidable (IsName s) :=
  decidable_of_iff (s.toList.all isNameChar ∧ s.toList.head?.any fun c => !c.isDigit)
    ⟨fun h => ⟨List.all_eq_true.1 h.1, by simpa [Option.any_eq_true] using h.2⟩,
      fun h => ⟨List.all_eq_true.2 h.chars, by simpa [Option.any_eq_true] using h.starts⟩⟩

/-- A character of a name is ordinary. -/
theorem isOrdinary_of_isNameChar {c : Char} (h : isNameChar c) : isOrdinary c := by
  have marks : ['\\', '\'', '"', ' ', '\t', ';', '&', '|', '<', '>', '(', ')', '\n', '$', '\x60',
      '*', '?', '['].all fun d => !isNameChar d := by decide
  have other := fun mark => List.all_eq_true.1 marks c mark
  simpa [isOrdinary, isGap, isOperator, isReplaced, not_or, and_assoc, h] using other

/-- A name is a word. -/
theorem IsName.isWord {s : String} (h : IsName s) : IsWord s.toList := by
  obtain ⟨c, hc, -⟩ := h.starts
  have name : isNameChar c := h.chars c (List.mem_of_mem_head? hc)
  refine ⟨fun d hd => isOrdinary_of_isNameChar (h.chars d hd), c, hc, ?_, ?_⟩ <;>
  · rintro rfl
    exact absurd name (by decide)

/-- The word that sets a variable. -/
def Token.ofBinding (binding : String × String) : Token :=
  .ofText (binding.1 ++ "=" ++ binding.2)

/-- An assignment is one word: the name, an equals sign and the value. -/
theorem oneWord_assignment {binding : String × String} (h : IsName binding.1) :
    OneWord (assignment binding).toList (letters (binding.1 ++ "=" ++ binding.2).toList) := by
  intro ts
  have equals : IsPlain "=".toList := List.forall_mem_singleton.2 rfl
  rw [assignment, String.toList_append, String.toList_append, toList_quote,
    Reading.read_append, Reading.read_append, h.isWord.oneWord ts, Reading.read_plain equals,
    Reading.read_quoteChars, String.toList_append, String.toList_append]
  simp [letters]

/-! ### Commands in an environment -/

/-- What stands in front of a command in an environment. -/
def exportTokens (environment : List (String × String)) : List Token :=
  .ofText "export" :: environment.map .ofBinding

/-- The variables as they stand in front of a command. -/
def exportText (environment : List (String × String)) : String :=
  "export " ++ " ".intercalate (environment.map assignment)

/-- A command with exports stands behind them. -/
theorem withEnvironment_eq (h : environment ≠ []) :
    withEnvironment command environment = exportText environment ++ "; " ++ command := by
  rw [withEnvironment, if_neg (by simpa using h), exportText]

/-- The exports are read to their end. -/
theorem complete_exportText (names : ∀ b ∈ environment, IsName b.1) :
    Complete (exportText environment) (exportTokens environment) := by
  have first : Reading.start.read "export ".toList = ⟨[.ofText "export"], none, .plain⟩ := by
    decide
  have row := Reading.closed_read_row environment [.ofText "export"]
    fun b hb => oneWord_assignment (names b hb)
  rw [Complete, exportText, String.toList_append, Reading.read_append, first,
    String.toList_intercalate, List.map_map]
  exact row

/-- **A command in an environment** is read like the command after the exports. -/
theorem read_withEnvironment (h : environment ≠ []) (names : ∀ b ∈ environment, IsName b.1) :
    Reading.start.read (withEnvironment command environment).toList =
      (Reading.start.read command.toList).after (exportTokens environment ++ [.operator ';']) := by
  have front : Complete (exportText environment ++ ";")
      (exportTokens environment ++ [.operator ';']) := by
    have semicolon : ";".toList = [';'] := rfl
    rw [Complete, String.toList_append, semicolon, Reading.read_append, Reading.read_cons,
      (Reading.feed_of_closed (complete_exportText names)).2, Reading.read_nil,
      Reading.closed_between]
  have split : exportText environment ++ "; " = exportText environment ++ ";" ++ " " := by
    rw [String.append_assoc]
    rfl
  rw [withEnvironment_eq h, split, front.read_append, Reading.read_between]

/-- **A command with exports** is read as these, an end of command, and the command. -/
theorem tokens?_withEnvironment (h : environment ≠ []) (names : ∀ b ∈ environment, IsName b.1) :
    tokens? (withEnvironment command environment) =
      (tokens? command).map ((exportTokens environment ++ [.operator ';']) ++ ·) := by
  rw [tokens?, read_withEnvironment h names, Reading.finished?_after]
  rfl

/-- The exports stand before a command, so more of it may be added behind. -/
theorem withEnvironment_append (command more : String) :
    withEnvironment (command ++ more) environment =
      withEnvironment command environment ++ more := by
  unfold withEnvironment
  split_ifs
  · rfl
  · simp only [String.append_assoc]

/-- A command that words can follow is one in an environment, too. -/
theorem Complete.withEnvironment {ts : List Token} (h : Complete command ts) (h' : environment ≠ [])
    (names : ∀ b ∈ environment, IsName b.1) :
    Complete (withEnvironment command environment)
      (exportTokens environment ++ [.operator ';'] ++ ts) := by
  rw [Complete, read_withEnvironment h' names, Reading.closed_after, h]
  rfl

/-- **Variables survive the shell.** In front of a command they are one `export` with
a word for each variable, in their order; the command after them is read as it would
be alone. A quoted value is read as the one word that it is. -/
theorem withEnvironment_read (environment : List (String × String)) (command : String)
    (names : ∀ b ∈ environment, IsName b.1) :
    (environment = [] → withEnvironment command environment = command) ∧
      (environment ≠ [] → ∃ front,
        withEnvironment command environment = front ++ "; " ++ command ∧
        tokens? front = some (.ofText "export" :: environment.map .ofBinding) ∧
        tokens? (withEnvironment command environment) = (tokens? command).map fun ts =>
          .ofText "export" :: environment.map .ofBinding ++ .operator ';' :: ts) ∧
      (∀ value, tokens? (quote value) = some [.ofText value]) ∧ Function.Injective quote := by
  refine ⟨?empty, fun h => ⟨exportText environment, withEnvironment_eq h, ?front, ?whole⟩,
    tokens?_quote, ?injective⟩
  case empty =>
    rintro rfl
    rfl
  case front => exact (complete_exportText names).tokens?_eq
  case whole =>
    rw [tokens?_withEnvironment h names]
    congr 1
    funext ts
    rw [exportTokens, List.append_assoc, List.singleton_append]
  case injective =>
    intro a b same
    have read := (tokens?_quote a).symm.trans ((congrArg tokens? same).trans (tokens?_quote b))
    exact Token.ofText_injective (List.cons.inj (Option.some.inj read)).1

/-- Quotes, an end of the command, a substitution and a new line in the values, and
none of them is more than a character. -/
theorem withEnvironment_read_marks :
    tokens? (withEnvironment "docker ps -q" [("HOST", "'a'; rm -rf ~"), ("TAG", "$(x)\n''\\")]) =
      some ([.ofText "export", .ofText "HOST='a'; rm -rf ~", .ofText "TAG=$(x)\n''\\",
        .operator ';', .ofText "docker", .ofText "ps", .ofText "-q"]) := by
  have names : ∀ b ∈ [("HOST", "'a'; rm -rf ~"), ("TAG", "$(x)\n''\\")], IsName b.1 := by
    decide
  obtain ⟨front, -, -, whole⟩ := (withEnvironment_read _ "docker ps -q" names).2.1 (by simp)
  rw [whole]
  rfl

end Shell

/-- The environment of a host always exports something. -/
theorem HostEnvironment.exports_ne_nil (env : HostEnvironment) : env.exports ≠ [] :=
  List.cons_ne_nil _ _

/-- The names of the variables of a deployment are identifiers. -/
theorem HostEnvironment.isName_exports (env : HostEnvironment) :
    ∀ b ∈ env.exports, Shell.IsName b.1 := by
  have host : Shell.IsName "HOST" := by decide
  have tag : Shell.IsName "TAG" := by decide
  have bootstrap : Shell.IsName "BOOTSTRAP" := by decide
  rw [exports, List.forall_mem_append]
  refine ⟨List.forall_mem_cons.2 ⟨host, List.forall_mem_singleton.2 tag⟩, ?_⟩
  cases env.bootstrap with
  | none => exact List.forall_mem_nil _
  | some address => exact List.forall_mem_singleton.2 bootstrap

end Rollout
