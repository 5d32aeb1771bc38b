/-
# Removing control sequences

The three parts of a control sequence have no character in common, so a
sequence is read in one way only. A line feed is in no sequence, so a text may be
divided into lines before or after its sequences are removed.

| statement | says |
| --- | --- |
| `after?_eq_some` | a text starts with a sequence exactly when one is found there |
| `strip_append_stop` | what stands before an escape is stripped on its own |
| `strip_append_break` | what stands on the two sides of a character outside of every sequence is stripped on its own |
| `pieces_strip` | stripping goes piece by piece |
| `Coloured.strip_eq` | sequences that are put into a text without escapes are all removed |
-/

import Rollout.Proofs.Text.Lines

namespace Rollout
namespace Text
namespace ControlSequence

/-- A complete control sequence. -/
inductive IsSequence : List Char → Prop where
  | mk {parameters intermediates : List Char} {final : Char}
    (parameter : ∀ c ∈ parameters, isParameter c = true)
    (intermediate : ∀ c ∈ intermediates, isIntermediate c = true)
    (last : isFinal final = true) :
    IsSequence (escape :: '[' :: (parameters ++ intermediates ++ [final]))

/-! ### Reading one sequence -/

/-- Parameters are digits, semicolons and question marks. -/
theorem isParameter_iff {c : Char} :
    isParameter c = true ↔ (48 ≤ c.toNat ∧ c.toNat ≤ 57) ∨ c.toNat = 59 ∨ c.toNat = 63 := by
  have semicolon : c = ';' ↔ c.toNat = 59 := Char.toNat_inj.symm
  have question : c = '?' ↔ c.toNat = 63 := Char.toNat_inj.symm
  simp [isParameter, Char.isDigit, UInt32.le_iff_toNat_le, semicolon, question, or_assoc]

/-- Intermediates are the characters from the space to the slash. -/
theorem isIntermediate_iff {c : Char} :
    isIntermediate c = true ↔ 32 ≤ c.toNat ∧ c.toNat ≤ 47 := by
  simp [isIntermediate, Char.le_def, UInt32.le_iff_toNat_le]

/-- A final is one of the characters from the at sign to the tilde. -/
theorem isFinal_iff {c : Char} : isFinal c = true ↔ 64 ≤ c.toNat ∧ c.toNat ≤ 126 := by
  simp [isFinal, Char.le_def, UInt32.le_iff_toNat_le]

/-- No intermediate is a parameter. -/
theorem not_isParameter_of_isIntermediate {c : Char} (h : isIntermediate c = true) :
    ¬ isParameter c = true := by
  rw [isIntermediate_iff] at h
  rw [isParameter_iff]
  omega

/-- No final is a parameter. -/
theorem not_isParameter_of_isFinal {c : Char} (h : isFinal c = true) : ¬ isParameter c = true := by
  rw [isFinal_iff] at h
  rw [isParameter_iff]
  omega

/-- No final is an intermediate. -/
theorem not_isIntermediate_of_isFinal {c : Char} (h : isFinal c = true) :
    ¬ isIntermediate c = true := by
  rw [isFinal_iff] at h
  rw [isIntermediate_iff]
  omega

/-- Behind parameters, intermediates and a final the body of a sequence has ended. -/
theorem afterBody?_body {parameters intermediates rest : List Char} {final : Char}
    (parameter : ∀ c ∈ parameters, isParameter c = true)
    (intermediate : ∀ c ∈ intermediates, isIntermediate c = true) (last : isFinal final = true) :
    afterBody? (parameters ++ (intermediates ++ final :: rest)) = some rest := by
  have first : (intermediates ++ final :: rest).dropWhile isParameter =
      intermediates ++ final :: rest := by
    cases intermediates with
    | nil => exact List.dropWhile_cons_of_neg (not_isParameter_of_isFinal last)
    | cons c cs =>
      exact List.dropWhile_cons_of_neg
        (not_isParameter_of_isIntermediate (intermediate c List.mem_cons_self))
  have second : (intermediates ++ final :: rest).dropWhile isIntermediate = final :: rest := by
    rw [List.dropWhile_append_of_pos intermediate,
      List.dropWhile_cons_of_neg (not_isIntermediate_of_isFinal last)]
  rw [afterBody?, List.dropWhile_append_of_pos parameter, first, second]
  exact if_pos last

/-- A body is made of parameters, intermediates and a final. -/
theorem of_afterBody? {cs rest : List Char} (h : afterBody? cs = some rest) :
    ∃ parameters intermediates final, (∀ c ∈ parameters, isParameter c = true) ∧
      (∀ c ∈ intermediates, isIntermediate c = true) ∧ isFinal final = true ∧
      cs = parameters ++ (intermediates ++ final :: rest) := by
  unfold afterBody? at h
  split at h
  · cases h
  · rename_i final tail hd
    split at h
    · rename_i last
      obtain rfl := Option.some.inj h
      refine ⟨cs.takeWhile isParameter, (cs.dropWhile isParameter).takeWhile isIntermediate, final,
        List.all_eq_true.1 List.all_takeWhile, List.all_eq_true.1 List.all_takeWhile, last, ?_⟩
      rw [← hd, List.takeWhile_append_dropWhile, List.takeWhile_append_dropWhile]
    · cases h

/-- **A sequence is read in one way.** It is found where it stands, and what is
found is one. -/
theorem after?_eq_some {cs rest : List Char} :
    after? cs = some rest ↔ ∃ sequence, IsSequence sequence ∧ cs = sequence ++ rest := by
  constructor
  · intro h
    unfold after? at h
    split at h
    · cases h
    · cases h
    · split at h
      · rename_i opening
        obtain ⟨rfl, rfl⟩ := opening
        obtain ⟨_, _, _, parameter, intermediate, last, rfl⟩ := of_afterBody? h
        exact ⟨_, .mk parameter intermediate last, by simp⟩
      · cases h
  · rintro ⟨_, ⟨parameter, intermediate, last⟩, rfl⟩
    simpa [after?] using afterBody?_body parameter intermediate last

/-- Only an escape starts a sequence. -/
theorem after?_of_ne {c : Char} {cs : List Char} (h : c ≠ escape) : after? (c :: cs) = none := by
  cases cs with
  | nil => rfl
  | cons d cs => exact if_neg fun opening => h opening.1

/-! ### Stripping -/

theorem strip_nil : strip [] = [] := by
  rw [strip]

/-- Stripping goes on behind a sequence at the start. -/
theorem strip_of_after? {cs rest : List Char} (h : after? cs = some rest) :
    strip cs = strip rest := by
  cases cs with
  | nil => cases h
  | cons c cs =>
    rw [strip]
    split
    · rename_i rest' found
      obtain rfl := Option.some.inj (h.symm.trans found)
      rfl
    · rename_i none
      rw [h] at none
      cases none

/-- Stripping keeps a character that starts no sequence. -/
theorem strip_of_not {c : Char} {cs : List Char} (h : after? (c :: cs) = none) :
    strip (c :: cs) = c :: strip cs := by
  rw [strip]
  split
  · rename_i found
    rw [h] at found
    cases found
  · rfl

/-- A sequence at the start of a text is stripped. -/
theorem IsSequence.strip_append {sequence cs : List Char} (h : IsSequence sequence) :
    strip (sequence ++ cs) = strip cs :=
  strip_of_after? (after?_eq_some.2 ⟨sequence, h, rfl⟩)

/-- A character that no sequence has behind its two opening characters. -/
structure IsStop (c : Char) : Prop where
  parameter : ¬ isParameter c = true
  intermediate : ¬ isIntermediate c = true
  final : ¬ isFinal c = true

/-- An escape ends what comes before it. -/
theorem isStop_escape : IsStop escape := by
  constructor <;> decide

/-- A character that no sequence has. -/
structure IsBreak (c : Char) : Prop where
  escape : c ≠ escape
  parameter : ¬ isParameter c = true
  intermediate : ¬ isIntermediate c = true
  final : ¬ isFinal c = true

/-- A break ends what comes before it. -/
theorem IsBreak.stop {c : Char} (h : IsBreak c) : IsStop c :=
  ⟨h.parameter, h.intermediate, h.final⟩

theorem isBreak_lineFeed : IsBreak '\n' := by
  constructor <;> decide

theorem isBreak_return : IsBreak '\r' := by
  constructor <;> decide

theorem isBreak_equals : IsBreak '=' := by
  constructor <;> decide

/-- A scan that a character stops goes no further, whatever comes behind that. -/
theorem dropWhile_append_of_stop {p : Char → Bool} {c : Char} (h : ¬ p c = true)
    (cs ds : List Char) : (cs ++ c :: ds).dropWhile p = cs.dropWhile p ++ c :: ds := by
  rw [List.dropWhile_append, List.dropWhile_cons_of_neg h]
  split
  · rename_i nil
    rw [List.isEmpty_iff.1 nil, List.nil_append]
  · rfl

/-- No body goes on across a stop. -/
theorem afterBody?_append_stop {c : Char} (h : IsStop c) (cs ds : List Char) :
    afterBody? (cs ++ c :: ds) = (afterBody? cs).map (· ++ c :: ds) := by
  rw [afterBody?, afterBody?, dropWhile_append_of_stop h.parameter,
    dropWhile_append_of_stop h.intermediate]
  cases (cs.dropWhile isParameter).dropWhile isIntermediate with
  | nil => exact if_neg h.final
  | cons d tail =>
    rw [List.cons_append]
    dsimp only
    split <;> rfl

/-- No sequence goes on across a stop. -/
theorem after?_append_stop {c : Char} (h : IsStop c) (d : Char) (cs ds : List Char) :
    after? (d :: (cs ++ c :: ds)) = (after? (d :: cs)).map (· ++ c :: ds) := by
  cases cs with
  | nil =>
    refine if_neg fun opening => h.final ?_
    rw [opening.2]
    rfl
  | cons e cs =>
    rw [List.cons_append, after?, after?]
    split
    · exact afterBody?_append_stop h cs ds
    · rfl

/-- **A character that no sequence has behind its opening** divides a text. What stands
before it is stripped on its own. -/
theorem strip_append_stop {c : Char} (h : IsStop c) (cs ds : List Char) :
    strip (cs ++ c :: ds) = strip cs ++ strip (c :: ds) := by
  fun_induction strip cs with
  | case1 => rfl
  | case2 d cs rest found ih =>
    have found' : after? (d :: (cs ++ c :: ds)) = some (rest ++ c :: ds) := by
      rw [after?_append_stop h, found]
      rfl
    rw [List.cons_append, strip_of_after? found', ih]
  | case3 d cs none ih =>
    have none' : after? (d :: (cs ++ c :: ds)) = Option.none := by
      rw [after?_append_stop h, none]
      rfl
    rw [List.cons_append, strip_of_not none', ih, List.cons_append]

/-- **A character outside of every sequence divides a text.** The two sides are
stripped on their own. -/
theorem strip_append_break {c : Char} (h : IsBreak c) (cs ds : List Char) :
    strip (cs ++ c :: ds) = strip cs ++ c :: strip ds := by
  rw [strip_append_stop h.stop, strip_of_not (after?_of_ne h.escape)]

/-- **Stripping goes piece by piece**, where the pieces are divided by a character
outside of every sequence. -/
theorem pieces_strip {sep : Char} (h : IsBreak sep) (cs : List Char) :
    pieces sep (strip cs) = (pieces sep cs).map strip := by
  by_cases mem : sep ∈ cs
  · obtain ⟨left, right, split⟩ := List.append_of_mem mem
    have shorter : left.length < cs.length ∧ right.length < cs.length := by
      rw [split, List.length_append, List.length_cons]
      omega
    rw [split, strip_append_break h, pieces_append_sep, pieces_append_sep, List.map_append,
      pieces_strip h left, pieces_strip h right]
  · have mem' : sep ∉ strip cs := fun hs => mem ((strip_sublist cs).mem hs)
    rw [pieces_of_not_mem mem, pieces_of_not_mem mem', List.map_singleton]
termination_by cs.length
decreasing_by
  · exact shorter.1
  · exact shorter.2

/-! ### Sequences that are put into a text -/

/-- The second text is the first with complete sequences put in, at any places. -/
inductive Coloured : List Char → List Char → Prop where
  | nil : Coloured [] []
  | char (c : Char) {plain coloured : List Char} (rest : Coloured plain coloured) :
    Coloured (c :: plain) (c :: coloured)
  | sequence {sequence plain coloured : List Char} (complete : IsSequence sequence)
    (rest : Coloured plain coloured) : Coloured plain (sequence ++ coloured)

/-- Sequences that are put into a text without escapes are all removed, whatever follows. -/
theorem Coloured.strip_append {plain coloured : List Char} (h : Coloured plain coloured)
    (free : escape ∉ plain) (cs : List Char) : strip (coloured ++ cs) = plain ++ strip cs := by
  induction h with
  | nil => rfl
  | char c rest ih =>
    rw [List.mem_cons, not_or] at free
    rw [List.cons_append, strip_of_not (after?_of_ne (Ne.symm free.1)), ih free.2, List.cons_append]
  | sequence complete rest ih => rw [List.append_assoc, complete.strip_append, ih free]

/-- **Sequences that are put into a text without escapes are all removed.** -/
theorem Coloured.strip_eq {plain coloured : List Char} (h : Coloured plain coloured)
    (free : escape ∉ plain) : strip coloured = plain := by
  have stripped := h.strip_append free []
  rwa [List.append_nil, strip_nil, List.append_nil] at stripped

/-- **Stripping takes out complete sequences**, and nothing else. -/
theorem coloured_strip (cs : List Char) : Coloured (strip cs) cs := by
  fun_induction strip cs with
  | case1 => exact .nil
  | case2 c cs rest found ih =>
    obtain ⟨sequence, complete, split⟩ := after?_eq_some.1 found
    rw [split]
    exact .sequence complete ih
  | case3 c cs none ih => exact .char c ih

/-- A text without escapes is stripped of nothing. -/
theorem strip_of_not_mem {cs : List Char} (free : escape ∉ cs) : strip cs = cs := by
  induction cs with
  | nil => exact strip_nil
  | cons c cs ih =>
    rw [List.mem_cons, not_or] at free
    rw [strip_of_not (after?_of_ne (Ne.symm free.1)), ih free.2]

end ControlSequence
end Text
end Rollout
