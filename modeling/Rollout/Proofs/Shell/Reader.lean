/-
# How a shell reads a command

A command is read character by character, by the rules of a POSIX shell:

| where | character | meaning |
| --- | --- | --- |
| outside quotes | space, tab | ends a word |
| | `;`, `&`, `\|`, `<`, `>`, `(`, `)`, line feed | ends a word and is an operator |
| | `$`, backtick, `*`, `?`, `[`, a first `~` | stands for something else |
| | a first `#` | the rest of the line is a comment |
| | quotation mark | opens quotes, which may be empty |
| | backslash | takes the next character as it is; a line feed disappears |
| in single quotes | any but a single quote | is taken as it is |
| in double quotes | `$`, backtick | stands for something else |
| | backslash | takes the next of `$`, backtick, `"`, backslash as it is |

What characters stand for depends on the host, so a word is a row of letters of
which each is a character or is to be replaced. An operator of two characters is
read as two. A command that leaves quotes open is not read.
-/

import Rollout.Shell
import Mathlib.Tactic.SplitIfs

namespace Rollout
namespace Shell

/-- One letter of a word. -/
inductive Letter where
  /-- The character itself. -/
  | literal (c : Char)
  /-- A character that the shell puts something else for. -/
  | replaced (c : Char)
  deriving DecidableEq, Repr

/-- One part of a command. -/
inductive Token where
  | word (letters : List Letter)
  | operator (c : Char)
  deriving DecidableEq, Repr

/-- The letters of a text that is taken as it is. -/
def letters (cs : List Char) : List Letter :=
  cs.map .literal

/-- The word that is a text, character by character. -/
def Token.ofText (s : String) : Token :=
  .word (letters s.toList)

/-- Where the next character stands. -/
inductive Mode where
  | plain
  /-- After a backslash. -/
  | escaped
  | single
  | double
  /-- After a backslash in double quotes. -/
  | doubleEscaped
  | comment
  deriving DecidableEq, Repr

/-- How far a command has been read: the tokens that have ended, the word under
way, and where the next character stands. -/
structure Reading where
  tokens : List Token
  word : Option (List Letter)
  mode : Mode
  deriving DecidableEq, Repr

/-- The character ends a word and is nothing else. -/
def isGap (c : Char) : Bool :=
  c == ' ' || c == '\t'

/-- The character ends a word and is an operator. -/
def isOperator (c : Char) : Bool :=
  c == ';' || c == '&' || c == '|' || c == '<' || c == '>' || c == '(' || c == ')' || c == '\n'

/-- The character stands for something else wherever it is outside quotes. -/
def isReplaced (c : Char) : Bool :=
  c == '$' || c == '\x60' || c == '*' || c == '?' || c == '['

namespace Reading

/-- Nothing has been read. -/
def start : Reading :=
  ⟨[], none, .plain⟩

/-- The reading in another mode. -/
def within (r : Reading) (mode : Mode) : Reading :=
  { r with mode := mode }

/-- The reading with a word under way. -/
def opened (r : Reading) : Reading :=
  { r with word := some (r.word.getD []) }

/-- The reading with one more letter. -/
def added (r : Reading) (l : Letter) : Reading :=
  { r with word := some (r.word.getD [] ++ [l]) }

/-- The reading without a word under way. -/
def closed (r : Reading) : Reading :=
  { r with tokens := r.tokens ++ r.word.toList.map .word, word := none }

/-- The reading with an operator. -/
def operated (r : Reading) (c : Char) : Reading :=
  { r.closed with tokens := r.closed.tokens ++ [.operator c] }

/-- Reads a character outside quotes. -/
def feedPlain (r : Reading) (c : Char) : Reading :=
  if c = '\\' then r.within .escaped
  else if c = '\'' then r.opened.within .single
  else if c = '"' then r.opened.within .double
  else if isGap c then r.closed
  else if isOperator c then r.operated c
  else if isReplaced c then r.added (.replaced c)
  else if r.word.isNone && c == '~' then r.added (.replaced c)
  else if r.word.isNone && c == '#' then r.within .comment
  else r.added (.literal c)

/-- Reads a character in double quotes. -/
def feedDouble (r : Reading) (c : Char) : Reading :=
  if c = '"' then r.within .plain
  else if c = '\\' then r.within .doubleEscaped
  else if c = '$' ∨ c = '\x60' then r.added (.replaced c)
  else r.added (.literal c)

/-- Reads a character after a backslash in double quotes. -/
def feedDoubleEscaped (r : Reading) (c : Char) : Reading :=
  if c = '\n' then r.within .double
  else if c = '$' ∨ c = '\x60' ∨ c = '"' ∨ c = '\\' then (r.added (.literal c)).within .double
  else ((r.added (.literal '\\')).added (.literal c)).within .double

/-- Reads one character. -/
def feed (r : Reading) (c : Char) : Reading :=
  match r.mode with
  | .plain => r.feedPlain c
  | .escaped => if c = '\n' then r.within .plain else (r.added (.literal c)).within .plain
  | .single => if c = '\'' then r.within .plain else r.added (.literal c)
  | .double => r.feedDouble c
  | .doubleEscaped => r.feedDoubleEscaped c
  | .comment => if c = '\n' then (r.operated c).within .plain else r

/-- Reads on. -/
def read (r : Reading) (cs : List Char) : Reading :=
  cs.foldl feed r

/-- The tokens of a command that ends here. -/
def finished? (r : Reading) : Option (List Token) :=
  if r.mode = .plain ∨ r.mode = .comment then some r.closed.tokens else none

/-- The reading with other tokens before its own. -/
def after (r : Reading) (ts : List Token) : Reading :=
  { r with tokens := ts ++ r.tokens }

end Reading

/-- The tokens of a command. -/
def tokens? (command : String) : Option (List Token) :=
  (Reading.start.read command.toList).finished?

namespace Reading

/-! ### The parts of a reading -/

@[simp] theorem mode_within (r : Reading) (mode : Mode) : (r.within mode).mode = mode := rfl

@[simp] theorem mode_opened (r : Reading) : r.opened.mode = r.mode := rfl

@[simp] theorem mode_added (r : Reading) (l : Letter) : (r.added l).mode = r.mode := rfl

@[simp] theorem mode_closed (r : Reading) : r.closed.mode = r.mode := rfl

@[simp] theorem mode_operated (r : Reading) (c : Char) : (r.operated c).mode = r.mode := rfl

@[simp] theorem mode_after (r : Reading) (ts : List Token) : (r.after ts).mode = r.mode := rfl

@[simp] theorem word_after (r : Reading) (ts : List Token) : (r.after ts).word = r.word := rfl

/-! ### What has been read stays -/

@[simp] theorem read_nil (r : Reading) : r.read [] = r := rfl

@[simp] theorem read_cons (r : Reading) (c : Char) (cs : List Char) :
    r.read (c :: cs) = (r.feed c).read cs := rfl

/-- Reading a text is reading its parts in turn. -/
theorem read_append (r : Reading) (cs ds : List Char) :
    r.read (cs ++ ds) = (r.read cs).read ds :=
  List.foldl_append

@[simp] theorem within_after (r : Reading) (ts : List Token) (mode : Mode) :
    (r.after ts).within mode = (r.within mode).after ts := rfl

@[simp] theorem opened_after (r : Reading) (ts : List Token) :
    (r.after ts).opened = r.opened.after ts := rfl

@[simp] theorem added_after (r : Reading) (ts : List Token) (l : Letter) :
    (r.after ts).added l = (r.added l).after ts := rfl

@[simp] theorem closed_after (r : Reading) (ts : List Token) :
    (r.after ts).closed = r.closed.after ts := by
  simp [closed, after]

@[simp] theorem operated_after (r : Reading) (ts : List Token) (c : Char) :
    (r.after ts).operated c = (r.operated c).after ts := by
  rw [operated, closed_after]
  simp [operated, after]

/-- Tokens that were read before make no difference to how a character is read. -/
theorem feed_after (r : Reading) (ts : List Token) (c : Char) :
    (r.after ts).feed c = (r.feed c).after ts := by
  cases hm : r.mode with
  | plain =>
    simp only [feed, mode_after, hm, feedPlain, word_after, within_after, opened_after, added_after,
      closed_after, operated_after, apply_ite (after · ts)]
    rfl
  | escaped | single | comment =>
    simp only [feed, mode_after, hm, within_after, added_after, operated_after,
      apply_ite (after · ts)]
  | double =>
    simp only [feed, mode_after, hm, feedDouble, within_after, added_after, apply_ite (after · ts)]
  | doubleEscaped =>
    simp only [feed, mode_after, hm, feedDoubleEscaped, within_after, added_after,
      apply_ite (after · ts)]

/-- **What stands before** makes no difference to what is read. -/
theorem read_after (r : Reading) (ts : List Token) (cs : List Char) :
    (r.after ts).read cs = (r.read cs).after ts := by
  induction cs generalizing r with
  | nil => rfl
  | cons c cs ih => rw [read_cons, feed_after, ih, read_cons]

/-- Tokens that were read before are the first in the end. -/
theorem finished?_after (r : Reading) (ts : List Token) :
    (r.after ts).finished? = r.finished?.map (ts ++ ·) := by
  rw [finished?, finished?, closed_after, mode_after]
  split_ifs <;> rfl

/-- A reading between two words goes on like one from the start. -/
theorem read_between (ts : List Token) (cs : List Char) :
    (Reading.mk ts none .plain).read cs = (start.read cs).after ts := by
  rw [← read_after, start, after, List.append_nil]

/-- A character takes away no token that has been read. -/
theorem tokens_feed (r : Reading) (c : Char) : r.tokens <+: (r.feed c).tokens := by
  cases hm : r.mode with
  | plain =>
    simp only [feed, hm, feedPlain]
    split_ifs <;> simp [within, opened, closed, operated, added]
  | escaped | single | comment =>
    simp only [feed, hm]
    split_ifs <;> simp [within, closed, operated, added]
  | double =>
    simp only [feed, hm, feedDouble]
    split_ifs <;> simp [within, added]
  | doubleEscaped =>
    simp only [feed, hm, feedDoubleEscaped]
    split_ifs <;> simp [within, added]

/-- A text takes away no token that has been read. -/
theorem tokens_read (r : Reading) (cs : List Char) : r.tokens <+: (r.read cs).tokens := by
  induction cs generalizing r with
  | nil => exact List.prefix_rfl
  | cons c cs ih => exact (tokens_feed r c).trans (ih _)

end Reading
end Shell
end Rollout
