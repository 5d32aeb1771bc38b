/-
# Terminal control sequences

A control sequence is the escape character, `[`, any number of parameter
characters, any number of intermediate characters, and one final character:

| part | characters |
| --- | --- |
| parameter | `0`–`9`, `;`, `?` |
| intermediate | space–`/` |
| final | `@`–`~` |

The three classes are disjoint, so a sequence is read in one way only. An
escape that starts no complete sequence is an ordinary character.
-/

namespace Rollout
namespace Text
namespace ControlSequence

/-- The escape character that opens every sequence. -/
def escape : Char := '\x1b'

/-- A parameter character. -/
def isParameter (c : Char) : Bool :=
  c.isDigit || c == ';' || c == '?'

/-- An intermediate character. -/
def isIntermediate (c : Char) : Bool :=
  ' ' ≤ c && c ≤ '/'

/-- A final character. -/
def isFinal (c : Char) : Bool :=
  '@' ≤ c && c ≤ '~'

/-- The text after the two opening characters of a sequence continues with a
complete sequence; this is what follows it. -/
def afterBody? (cs : List Char) : Option (List Char) :=
  match (cs.dropWhile isParameter).dropWhile isIntermediate with
  | [] => none
  | c :: rest => if isFinal c then some rest else none

/-- What follows the control sequence that the text starts with. -/
def after? : List Char → Option (List Char)
  | [] => none
  | [_] => none
  | c :: d :: rest => if c = escape ∧ d = '[' then afterBody? rest else none

/-- A control sequence takes at least one character behind its start. -/
theorem length_afterBody? {cs rest : List Char} (h : afterBody? cs = some rest) :
    rest.length < cs.length := by
  unfold afterBody? at h
  split at h
  · simp at h
  · rename_i c r hd
    split at h
    · obtain rfl := Option.some.inj h
      have h1 := (List.dropWhile_suffix (l := cs.dropWhile isParameter) isIntermediate).length_le
      have h2 := (List.dropWhile_suffix (l := cs) isParameter).length_le
      rw [hd] at h1
      simp only [List.length_cons] at h1
      omega
    · simp at h

/-- **A control sequence is not empty.** -/
theorem length_after? {cs rest : List Char} (h : after? cs = some rest) :
    rest.length < cs.length := by
  unfold after? at h
  split at h
  · simp at h
  · simp at h
  · split at h
    · have := length_afterBody? h
      simp only [List.length_cons]
      omega
    · simp at h

/-- The text without its control sequences, found from left to right. -/
def strip : List Char → List Char
  | [] => []
  | c :: cs =>
    match _h : after? (c :: cs) with
    | some rest => strip rest
    | none => c :: strip cs
termination_by cs => cs.length
decreasing_by
  · exact length_after? _h
  · simp

end ControlSequence
end Text
end Rollout
