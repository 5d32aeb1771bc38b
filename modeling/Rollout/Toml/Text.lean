/-
# The characters of a TOML text

A byte order mark at the start of a text is not part of it. A line ends with a
line feed, which may follow a carriage return; a carriage return stands nowhere
else.

| class | characters |
| --- | --- |
| gap | space, tab |
| plain | tab, and all from `0020` on but `007F` |

Comments go from a number sign to the end of their line and hold plain
characters.
-/

import Rollout.Text.Blank

namespace Rollout
namespace Toml

/-- The byte order mark. -/
def byteOrderMark : Char := '\ufeff'

/-- The text without a byte order mark at its start. -/
def withoutMark : List Char → List Char
  | [] => []
  | c :: cs => if c = byteOrderMark then cs else c :: cs

/-- A space or a tab. -/
def isGap (c : Char) : Bool :=
  c == ' ' || c == '\t'

/-- A character that may stand in comments and strings. -/
def isPlain (c : Char) : Bool :=
  c == '\t' || (0x20 ≤ c.toNat && c.toNat != 0x7F)

/-- The text without the gaps it starts with. -/
def skipGaps (cs : List Char) : List Char :=
  cs.dropWhile isGap

/-- What follows the line end that the text starts with. -/
def lineEnd? : List Char → Option (List Char)
  | '\n' :: rest => some rest
  | '\r' :: '\n' :: rest => some rest
  | _ => none

/-- The text without the comment it starts with. -/
def skipComment : List Char → List Char
  | '#' :: rest => rest.dropWhile isPlain
  | cs => cs

theorem length_skipGaps_le (cs : List Char) : (skipGaps cs).length ≤ cs.length :=
  (List.dropWhile_suffix isGap).length_le

/-- Skipping a comment makes a text no longer. -/
theorem length_skipComment_le (cs : List Char) : (skipComment cs).length ≤ cs.length := by
  unfold skipComment
  split
  · exact Nat.le_succ_of_le (List.dropWhile_suffix isPlain).length_le
  · exact Nat.le_refl _

/-- The end of a line takes at least one character. -/
theorem length_lineEnd? {cs rest : List Char} (h : lineEnd? cs = some rest) :
    rest.length < cs.length := by
  unfold lineEnd? at h
  split at h
  · simp_all
  · simp only [Option.some.injEq] at h
    simp only [← h, List.length_cons]
    omega
  · simp at h

/-- The text without the gaps and line ends it starts with. -/
def skipBreaks (cs : List Char) : List Char :=
  match _h : lineEnd? (skipGaps cs) with
  | some rest => skipBreaks rest
  | none => skipGaps cs
termination_by cs.length
decreasing_by exact Nat.lt_of_lt_of_le (length_lineEnd? _h) (length_skipGaps_le cs)

/-- The text without the gaps, comments and line ends it starts with. -/
def skipLines (cs : List Char) : List Char :=
  match _h : lineEnd? (skipComment (skipGaps cs)) with
  | some rest => skipLines rest
  | none => skipComment (skipGaps cs)
termination_by cs.length
decreasing_by
  exact Nat.lt_of_lt_of_le (length_lineEnd? _h)
    (Nat.le_trans (length_skipComment_le _) (length_skipGaps_le cs))

/-- Skipping line breaks makes a text no longer. -/
theorem length_skipBreaks_le (cs : List Char) : (skipBreaks cs).length ≤ cs.length := by
  fun_induction skipBreaks cs with
  | case1 cs rest h ih =>
    exact Nat.le_trans ih
      (Nat.le_of_lt (Nat.lt_of_lt_of_le (length_lineEnd? h) (length_skipGaps_le cs)))
  | case2 cs h => exact length_skipGaps_le cs

/-- What follows the line that ends here, but for gaps and a comment. -/
def restOfLine? (cs : List Char) : Option (List Char) :=
  match skipComment (skipGaps cs) with
  | [] => some []
  | rest => lineEnd? rest

end Toml
end Rollout
