/-
# Where a text stands in another

| search | finds |
| --- | --- |
| `stripStart?` | what follows a text at the beginning |
| `stripEnd?` | what comes before a text at the end |
| `splitFirst?` | what stands before and after its first occurrence |
| `contains` | whether it occurs |
-/

import Rollout.Text.Blank

namespace Rollout
namespace Text

variable {mark cs before after : List Char}

/-- `before` and `after` are what stands around the first occurrence of `mark`. -/
structure AroundFirst (mark cs before after : List Char) : Prop where
  split : cs = before ++ mark ++ after
  first : ∀ b a, cs = b ++ mark ++ a → before.length ≤ b.length

/-- A start is stripped from the texts that have it. -/
theorem stripStart?_eq_some {start rest : List Char} :
    stripStart? start cs = some rest ↔ cs = start ++ rest := by
  induction start generalizing cs with
  | nil => simp [stripStart?]
  | cons s ss ih =>
    cases cs with
    | nil => simp [stripStart?]
    | cons c cs =>
      rw [stripStart?, List.cons_append, List.cons.injEq]
      split
      · rename_i h
        rw [ih, h, and_iff_right rfl]
      · rename_i h
        simp [Ne.symm h]

/-- An ending is stripped from what has it behind. -/
theorem stripEnd?_append (cs ending : List Char) : stripEnd? ending (cs ++ ending) = some cs := by
  have back : stripStart? ending.reverse (cs ++ ending).reverse = some cs.reverse :=
    stripStart?_eq_some.2 List.reverse_append
  rw [stripEnd?, back, Option.map_some, List.reverse_reverse]

/-- An ending with another last character is not stripped. -/
theorem stripEnd?_of_last (ending : List Char) {c d : Char} (differs : d ≠ c) :
    stripEnd? (ending ++ [d]) (cs ++ [c]) = none := by
  simp [stripEnd?, stripStart?, differs]

/-- There is one first occurrence. -/
theorem AroundFirst.unique {before' after' : List Char} (h : AroundFirst mark cs before after)
    (h' : AroundFirst mark cs before' after') : before = before' ∧ after = after' := by
  have length : before.length = before'.length :=
    Nat.le_antisymm (h.first _ _ h'.split) (h'.first _ _ h.split)
  have same : before ++ (mark ++ after) = before' ++ (mark ++ after') := by
    rw [← List.append_assoc, ← h.split, h'.split, List.append_assoc]
  obtain ⟨rfl, rest⟩ := List.append_inj same length
  exact ⟨rfl, List.append_cancel_left rest⟩

/-- A mark at the start is the first. -/
theorem splitFirst?_of_start {rest : List Char} (h : stripStart? mark cs = some rest) :
    splitFirst? mark cs = some ([], rest) := by
  unfold splitFirst?
  rw [h]

/-- A mark that is not at the start is looked for behind the first character. -/
theorem splitFirst?_of_later {c : Char} (h : stripStart? mark (c :: cs) = none) :
    splitFirst? mark (c :: cs) =
      (splitFirst? mark cs).map fun (before, after) => (c :: before, after) := by
  conv => lhs; unfold splitFirst?
  rw [h]

/-- An occurrence that is not at the beginning is one in the rest of the text. -/
theorem occurrence_later {c : Char} (h : stripStart? mark (c :: cs) = none)
    (split : c :: cs = before ++ mark ++ after) :
    ∃ b, before = c :: b ∧ cs = b ++ mark ++ after := by
  cases before with
  | nil =>
    have start : stripStart? mark (c :: cs) = some after := stripStart?_eq_some.2 split
    rw [h] at start
    cases start
  | cons d b =>
    obtain ⟨rfl, rest⟩ := List.cons.inj split
    exact ⟨b, rfl, rest⟩

/-- Splitting stops at the first occurrence, or there is none. -/
theorem splitFirst?_spec (mark cs : List Char) :
    (∃ before after, splitFirst? mark cs = some (before, after) ∧
      AroundFirst mark cs before after) ∨ splitFirst? mark cs = none ∧ ¬ mark <:+: cs := by
  have start : ∀ {cs rest}, stripStart? mark cs = some rest →
      splitFirst? mark cs = some ([], rest) ∧ AroundFirst mark cs [] rest := fun h =>
    ⟨splitFirst?_of_start h, stripStart?_eq_some.1 h, fun _ _ _ => Nat.zero_le _⟩
  induction cs with
  | nil =>
    cases h : stripStart? mark [] with
    | some rest => exact .inl ⟨[], rest, start h⟩
    | none =>
      refine .inr ⟨by unfold splitFirst?; rw [h], fun found => ?_⟩
      obtain rfl := List.infix_nil.1 found
      cases h
  | cons c cs ih =>
    cases h : stripStart? mark (c :: cs) with
    | some rest => exact .inl ⟨[], rest, start h⟩
    | none =>
      rw [splitFirst?_of_later h]
      rcases ih with ⟨before, after, eq, around⟩ | ⟨eq, absent⟩
      · refine .inl ⟨c :: before, after, by rw [eq]; rfl, ?_, fun b a split => ?_⟩
        · rw [List.cons_append, List.cons_append, ← around.split]
        · obtain ⟨b, rfl, later⟩ := occurrence_later h split
          simpa using around.first b a later
      · refine .inr ⟨by rw [eq]; rfl, ?_⟩
        rintro ⟨b, a, split⟩
        obtain ⟨b, -, later⟩ := occurrence_later h split.symm
        exact absent ⟨b, a, later.symm⟩

/-- **Splitting** is at the first occurrence. -/
theorem splitFirst?_eq_some :
    splitFirst? mark cs = some (before, after) ↔ AroundFirst mark cs before after := by
  rcases splitFirst?_spec mark cs with ⟨before', after', eq, around⟩ | ⟨eq, absent⟩
  · rw [eq]
    constructor
    · rintro ⟨⟩
      exact around
    · intro h
      obtain ⟨rfl, rfl⟩ := around.unique h
      rfl
  · rw [eq]
    exact ⟨nofun, fun h => absurd ⟨before, after, h.split.symm⟩ absent⟩

/-- **A text contains another** when that stands somewhere in it. -/
theorem contains_iff : contains mark cs = true ↔ mark <:+: cs := by
  rw [contains]
  rcases splitFirst?_spec mark cs with ⟨before, after, eq, around⟩ | ⟨eq, absent⟩
  · simp only [eq, Option.isSome_some, true_iff]
    exact ⟨before, after, around.split.symm⟩
  · simp [eq, absent]

/-- A character that the mark does not have can be dropped from the end. -/
theorem contains_concat {c : Char} (h : c ∉ mark) (cs : List Char) :
    contains mark (cs ++ [c]) = contains mark cs := by
  rw [Bool.eq_iff_iff, contains_iff, contains_iff, List.infix_concat_iff, or_iff_right_iff_imp,
    List.suffix_concat_iff]
  rintro (rfl | ⟨front, rfl, -⟩)
  · exact List.nil_infix
  · exact absurd (List.mem_append_right front (List.mem_singleton_self c)) h

end Text
end Rollout
