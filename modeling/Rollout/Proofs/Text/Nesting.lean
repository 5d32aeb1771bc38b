/-
# Sequences that stripping leaves

Stripping goes over a text once. Where a sequence stands inside another one, it
keeps the outer sequence from being complete and is removed itself; then the two
parts of the outer sequence meet, and nobody looks at them again:

| text | stripped once | stripped twice |
| --- | --- | --- |
| `ESC[1mP ESC[m` | `P` | `P` |
| `ESC ESC[m [m` | `ESC[m` | nothing |

An escape is in no sequence except at its start, so a text may be divided before any
escape. Behind the escape of an outer sequence, stripping takes out what stands inside and
keeps the rest, which is the outer sequence on its own (`IsNest.strip_append`).

Main statements: stripping leaves a sequence exactly where the text has one into which
others are put (`hasSequence_strip_iff`), and stripping once more changes nothing in all
other texts and in no such text (`strip_strip_iff`).
-/

import Rollout.Proofs.Text.ControlSequence
import Rollout.Proofs.Text.Trim

namespace Rollout
namespace Text
namespace ControlSequence

/-- A complete control sequence stands in the text. -/
def HasSequence (cs : List Char) : Prop :=
  ∃ sequence, IsSequence sequence ∧ sequence <:+: cs

/-- A control sequence with complete sequences put in between its escape and its final
character. -/
inductive IsNest : List Char → Prop where
  | mk {body inner : List Char} {final : Char}
    (complete : IsSequence (escape :: (body ++ [final]))) (put : Coloured body inner)
    (inside : inner ≠ body) : IsNest (escape :: (inner ++ [final]))

/-- A control sequence with others in it stands in the text. -/
def HasNest (cs : List Char) : Prop :=
  ∃ nest, IsNest nest ∧ nest <:+: cs

/-! ### What a sequence is made of -/

/-- A final is no blank. -/
theorem isBlank_of_isFinal {c : Char} (h : isFinal c = true) : isBlank c = false := by
  rw [isFinal_iff] at h
  simp only [isBlank, Bool.or_eq_false_iff, Bool.and_eq_false_iff, decide_eq_false_iff_not,
    beq_eq_false_iff_ne]
  omega

namespace IsSequence

variable {sequence : List Char}

/-- A sequence starts with an escape and ends with a final. -/
theorem exists_ends (h : IsSequence sequence) :
    ∃ body final, sequence = escape :: (body ++ [final]) ∧ isFinal final = true := by
  obtain ⟨-, -, last⟩ := h
  exact ⟨_, _, congrArg (escape :: ·) (List.cons_append ..).symm, last⟩

/-- An escape stands at the start of a sequence only. -/
theorem escape_not_mem_tail {tail : List Char} (h : IsSequence (escape :: tail)) :
    escape ∉ tail := by
  generalize hs : escape :: tail = sequence at h
  obtain ⟨parameter, intermediate, last⟩ := h
  obtain rfl := List.cons.inj hs |>.2
  intro mem
  simp only [List.mem_cons, List.mem_append, List.not_mem_nil, or_false] at mem
  rcases mem with opening | (mem | mem) | mem
  · exact absurd opening (by decide)
  · exact isStop_escape.parameter (parameter _ mem)
  · exact isStop_escape.intermediate (intermediate _ mem)
  · exact isStop_escape.final (mem ▸ last)

/-- A sequence has no blanks around it. -/
theorem trimmed (h : IsSequence sequence) : Trimmed sequence := by
  obtain ⟨body, final, rfl, last⟩ := h.exists_ends
  constructor
  case first =>
    rintro c ⟨⟩
    decide
  case last =>
    intro c hc
    rw [← List.cons_append, List.getLast?_concat] at hc
    obtain rfl := Option.some.inj hc
    exact isBlank_of_isFinal last

/-- What a sequence begins with is no sequence. -/
theorem after?_of_prefix {start rest : List Char} (h : IsSequence (start ++ rest))
    (proper : rest ≠ []) : after? start = none := by
  refine Option.eq_none_iff_forall_ne_some.2 fun tail found => proper ?_
  obtain ⟨shorter, complete, split⟩ := after?_eq_some.1 found
  have whole : after? (start ++ rest) = some [] :=
    after?_eq_some.2 ⟨_, h, (List.append_nil _).symm⟩
  have cut : after? (start ++ rest) = some (tail ++ rest) :=
    after?_eq_some.2 ⟨shorter, complete, by rw [split, List.append_assoc]⟩
  exact (List.append_eq_nil_iff.1 (Option.some.inj (cut.symm.trans whole))).2

end IsSequence

/-- Trimming takes no sequence away and makes none. -/
theorem hasSequence_iff_of_trimsTo {cs ds : List Char} (h : TrimsTo cs ds) :
    HasSequence ds ↔ HasSequence cs :=
  exists_congr fun _ => and_congr_right fun complete => h.infix_iff complete.trimmed

/-! ### Where stripping changes nothing -/

/-- **Stripping changes a text** exactly when a sequence stands in it. -/
theorem strip_eq_self_iff {cs : List Char} : strip cs = cs ↔ ¬ HasSequence cs := by
  constructor
  · rintro same ⟨sequence, complete, before, after, split⟩
    obtain ⟨body, final, rfl, -⟩ := complete.exists_ends
    have shorter : strip cs = strip before ++ strip after := by
      rw [← split, List.append_assoc, List.cons_append, strip_append_stop isStop_escape,
        ← List.cons_append, complete.strip_append]
    have lengths := congrArg List.length (same.symm.trans shorter)
    have left := (strip_sublist before).length_le
    have right := (strip_sublist after).length_le
    rw [← split] at lengths
    simp only [List.length_append, List.length_cons] at lengths
    omega
  · intro absent
    fun_induction strip cs with
    | case1 => rfl
    | case2 c cs rest found ih =>
      obtain ⟨sequence, complete, split⟩ := after?_eq_some.1 found
      exact absurd ⟨sequence, complete, [], rest, split.symm⟩ absent
    | case3 c cs none ih =>
      rw [ih]
      rintro ⟨sequence, complete, inside⟩
      exact absent ⟨sequence, complete, inside.trans (List.suffix_cons c cs).isInfix⟩

instance (cs : List Char) : Decidable (HasSequence cs) :=
  decidable_of_iff (strip cs ≠ cs) (by rw [ne_eq, strip_eq_self_iff, Classical.not_not])

/-! ### Where stripping leaves a sequence -/

namespace Coloured

variable {plain coloured : List Char}

/-- A character of the plain text stands between the coloured texts on its two sides. -/
theorem exists_split {before after : List Char} {c : Char} (h : Coloured plain coloured)
    (split : plain = before ++ c :: after) : ∃ before' after',
      coloured = before' ++ c :: after' ∧ Coloured before before' ∧ Coloured after after' := by
  induction h generalizing before with
  | nil => exact absurd split (by simp)
  | char d rest ih =>
    cases before with
    | nil =>
      obtain ⟨rfl, rfl⟩ := List.cons.inj split
      exact ⟨[], _, rfl, .nil, rest⟩
    | cons e before =>
      obtain ⟨rfl, later⟩ := List.cons.inj split
      obtain ⟨before', after', rfl, left, right⟩ := ih later
      exact ⟨d :: before', after', rfl, .char d left, right⟩
  | @sequence sequence _ _ complete rest ih =>
    obtain ⟨before', after', rfl, left, right⟩ := ih split
    exact ⟨sequence ++ before', after', by rw [List.append_assoc], .sequence complete left, right⟩

/-- Where the texts differ, the first sequence that is put in starts with its escape. -/
theorem exists_first (h : Coloured plain coloured) (differ : coloured ≠ plain) :
    ∃ start rest rest', plain = start ++ rest ∧ coloured = start ++ escape :: rest' := by
  induction h with
  | nil => exact absurd rfl differ
  | char c _ ih =>
    obtain ⟨start, rest, rest', rfl, rfl⟩ := ih fun same => differ (congrArg (c :: ·) same)
    exact ⟨c :: start, rest, rest', rfl, rfl⟩
  | sequence complete _ ih =>
    obtain ⟨body, final, rfl, -⟩ := complete.exists_ends
    exact ⟨[], _, _, rfl, rfl⟩

end Coloured

/-- A character that is kept stands where no sequence starts, and what follows it is
stripped on its own. -/
theorem exists_kept {cs before after : List Char} {c : Char}
    (h : strip cs = before ++ c :: after) : ∃ before' after',
      cs = before' ++ c :: after' ∧ after? (c :: after') = none ∧ strip after' = after := by
  fun_induction strip cs generalizing before with
  | case1 => exact absurd h (by simp)
  | case2 d cs rest found ih =>
    obtain ⟨sequence, -, split⟩ := after?_eq_some.1 found
    obtain ⟨before', after', rfl, start, stripped⟩ := ih h
    exact ⟨sequence ++ before', after', by rw [split, List.append_assoc], start, stripped⟩
  | case3 d cs none ih =>
    cases before with
    | nil =>
      obtain ⟨rfl, rfl⟩ := List.cons.inj h
      exact ⟨[], cs, rfl, none, rfl⟩
    | cons e before =>
      obtain ⟨rfl, later⟩ := List.cons.inj h
      obtain ⟨before', after', rfl, start, stripped⟩ := ih later
      exact ⟨d :: before', after', rfl, start, stripped⟩

/-- A sequence that is left comes from one with others in it. -/
theorem hasNest_of_hasSequence_strip {cs : List Char} (h : HasSequence (strip cs)) :
    HasNest cs := by
  obtain ⟨sequence, complete, before, after, left⟩ := h
  obtain ⟨body, final, rfl, -⟩ := complete.exists_ends
  rw [List.append_assoc, List.cons_append, List.append_assoc, List.singleton_append] at left
  obtain ⟨before', rest, rfl, start, stripped⟩ := exists_kept left.symm
  obtain ⟨inner, after', rfl, put, -⟩ := (coloured_strip rest).exists_split stripped
  refine ⟨_, .mk complete put ?_, before', after', by simp⟩
  -- With nothing inside, the sequence would have been removed.
  rintro rfl
  have found : after? (escape :: (inner ++ final :: after')) = some after' :=
    after?_eq_some.2 ⟨_, complete, by simp⟩
  rw [start] at found
  cases found

/-- What is put into a sequence is all that stripping removes of it. -/
theorem IsNest.strip_append {nest : List Char} (h : IsNest nest) (cs : List Char) :
    ∃ sequence, IsSequence sequence ∧ strip (nest ++ cs) = sequence ++ strip cs := by
  obtain @⟨body, inner, final, complete, put, inside⟩ := h
  have free := complete.escape_not_mem_tail
  rw [List.mem_append, List.mem_singleton, not_or] at free
  have kept : after? (escape :: (inner ++ final :: cs)) = none := by
    obtain ⟨start, rest, rest', rfl, rfl⟩ := put.exists_first inside
    have whole : IsSequence (escape :: start ++ (rest ++ [final])) := by
      rwa [List.cons_append, ← List.append_assoc]
    have proper : after? (escape :: start) = none := whole.after?_of_prefix (by simp)
    rw [List.append_assoc, List.cons_append, after?_append_stop isStop_escape, proper]
    rfl
  refine ⟨_, complete, ?_⟩
  rw [List.cons_append, List.append_assoc, List.singleton_append, strip_of_not kept,
    put.strip_append free.1, strip_of_not (after?_of_ne (Ne.symm free.2))]
  simp

/-- **Stripping leaves a sequence** exactly when the text has one with others in it. -/
theorem hasSequence_strip_iff {cs : List Char} : HasSequence (strip cs) ↔ HasNest cs := by
  refine ⟨hasNest_of_hasSequence_strip, ?_⟩
  rintro ⟨nest, isNest, before, after, rfl⟩
  obtain ⟨sequence, complete, stripped⟩ := isNest.strip_append after
  refine ⟨sequence, complete, strip before, strip after, ?_⟩
  obtain @⟨body, inner, final, -, -, -⟩ := isNest
  rw [List.append_assoc before, List.cons_append, strip_append_stop isStop_escape,
    ← List.cons_append, stripped, List.append_assoc]

/-- **Stripping once is enough** exactly when no sequence has others in it. -/
theorem strip_strip_iff {cs : List Char} : strip (strip cs) = strip cs ↔ ¬ HasNest cs :=
  strip_eq_self_iff.trans (not_congr hasSequence_strip_iff)

instance (cs : List Char) : Decidable (HasNest cs) :=
  decidable_of_iff _ hasSequence_strip_iff

/-- A character outside of every sequence divides the ending of a text from the rest, before
stripping or after it. -/
theorem getD_afterLast?_strip {sep : Char} (h : IsBreak sep) (cs : List Char) :
    (afterLast? sep (strip cs)).getD (strip cs) = strip ((afterLast? sep cs).getD cs) := by
  have free : ∀ {ds : List Char}, sep ∉ ds → sep ∉ strip ds :=
    fun absent mem => absent ((strip_sublist _).mem mem)
  refine getD_afterLast?_eq_iff.2 ?_
  rcases getD_afterLast?_eq_iff.1 (rfl : (afterLast? sep cs).getD cs = _) with
    ⟨head, split, absent⟩ | ⟨absent, same⟩
  · refine .inl ⟨strip head, ?_, free absent⟩
    conv => lhs; rw [split]
    exact strip_append_break h head _
  · exact .inr ⟨free absent, congrArg strip same⟩

end ControlSequence
end Text
end Rollout
