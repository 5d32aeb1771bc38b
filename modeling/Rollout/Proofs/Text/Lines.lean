/-
# What lines are made of

A line is the beginning of a piece between line feeds, so no line has a line
feed. Removing control sequences removes characters only. Texts that are joined by
a separator are the pieces of the whole exactly when none of them has the separator.
-/

import Rollout.Text.Blank
import Rollout.Text.ControlSequence
import Rollout.Text.Lines

namespace Rollout
namespace Text

/-- No piece has the separator in it. -/
theorem not_mem_of_mem_pieces {sep : Char} {cs : List Char} :
    ∀ p ∈ pieces sep cs, sep ∉ p := by
  induction cs with
  | nil => simp [pieces]
  | cons c cs ih =>
    rw [pieces]
    split
    · simpa using ih
    · rename_i hc
      split
      · simpa [eq_comm] using hc
      · rename_i p ps hps
        rw [hps, List.forall_mem_cons] at ih
        have first := List.not_mem_cons_of_ne_of_not_mem (Ne.symm hc) ih.1
        exact List.forall_mem_cons.2 ⟨first, ih.2⟩

/-- What is left of a line without its carriage return is the start of it. -/
theorem dropReturn_prefix (cs : List Char) : dropReturn cs <+: cs := by
  fun_induction dropReturn cs with
  | case1 => exact List.prefix_rfl
  | case2 => exact List.nil_prefix
  | case3 c cs _ ih => exact (List.prefix_cons_inj c).2 ih

/-- Every line is the beginning of a piece. -/
theorem prefix_of_mem_linesOfPieces {ps : List (List Char)} {l : List Char}
    (h : l ∈ linesOfPieces ps) : ∃ p ∈ ps, l <+: p := by
  fun_induction linesOfPieces ps with
  | case1 => cases h
  | case2 last hlast => cases h
  | case3 last hlast =>
    obtain rfl := List.mem_singleton.1 h
    exact ⟨l, List.mem_singleton_self l, List.prefix_rfl⟩
  | case4 p ps _ ih =>
    rcases List.mem_cons.1 h with rfl | h
    · exact ⟨p, List.mem_cons_self, dropReturn_prefix p⟩
    · obtain ⟨q, hq, hle⟩ := ih h
      exact ⟨q, List.mem_cons_of_mem p hq, hle⟩

/-- **A line has no line feed.** -/
theorem not_mem_of_mem_lines {cs l : List Char} (h : l ∈ lines cs) : '\n' ∉ l := by
  obtain ⟨p, hp, hle⟩ := prefix_of_mem_linesOfPieces h
  exact fun mem => not_mem_of_mem_pieces p hp (hle.mem mem)

/-! ### Texts between separators -/

/-- The pieces of a text are what is split off at the separator. -/
theorem pieces_eq_splitOn (sep : Char) (cs : List Char) : pieces sep cs = cs.splitOn sep := by
  induction cs with
  | nil => rfl
  | cons c cs ih =>
    obtain ⟨p, ps, hps⟩ := List.exists_cons_of_ne_nil (List.splitOn_ne_nil sep cs)
    rw [pieces, List.splitOn_cons_eq_if_modifyHead, ih, hps]
    simp only [beq_iff_eq, List.modifyHead_cons]

/-- The pieces before a separator are followed by those behind it. -/
theorem pieces_append_sep (sep : Char) (cs ds : List Char) :
    pieces sep (cs ++ sep :: ds) = pieces sep cs ++ pieces sep ds := by
  simp only [pieces_eq_splitOn, List.splitOn]
  exact List.splitOnP_append_cons cs ds (beq_self_eq_true sep)

/-- A text without the separator is one piece. -/
theorem pieces_of_not_mem {sep : Char} {cs : List Char} (h : sep ∉ cs) : pieces sep cs = [cs] := by
  rw [pieces_eq_splitOn, List.splitOn_eq_singleton h]

/-- Every text has a piece. -/
theorem pieces_ne_nil (sep : Char) (cs : List Char) : pieces sep cs ≠ [] := by
  rw [pieces_eq_splitOn]
  exact List.splitOn_ne_nil sep cs

/-- **Joined pieces are read back** where none of them has the separator. -/
theorem pieces_intercalate {sep : Char} {ps : List (List Char)} (free : ∀ p ∈ ps, sep ∉ p)
    (nonempty : ps ≠ []) : pieces sep ([sep].intercalate ps) = ps := by
  rw [pieces_eq_splitOn, List.splitOn_intercalate sep free nonempty]

/-- Pieces that come before others are lines, without their carriage returns. -/
theorem linesOfPieces_append {ps qs : List (List Char)} (h : qs ≠ []) :
    linesOfPieces (ps ++ qs) = ps.map dropReturn ++ linesOfPieces qs := by
  induction ps with
  | nil => rfl
  | cons p ps ih =>
    obtain ⟨r, rs, hrs⟩ := List.exists_cons_of_ne_nil (List.append_ne_nil_of_right_ne_nil ps h)
    rw [List.cons_append, hrs, linesOfPieces, ← hrs, ih, List.map_cons, List.cons_append]
    exact nofun

/-- The lines before a line feed are followed by those behind it. -/
theorem lines_append_feed (cs ds : List Char) :
    lines (cs ++ '\n' :: ds) = (pieces '\n' cs).map dropReturn ++ lines ds := by
  rw [lines, pieces_append_sep, linesOfPieces_append (pieces_ne_nil _ _), lines]

/-- **What is appended after a line feed** has lines of its own. -/
theorem lines_append {cs : List Char} (ends : cs.getLast? = some '\n') (ds : List Char) :
    lines (cs ++ ds) = lines cs ++ lines ds := by
  obtain ⟨front, rfl⟩ := List.getLast?_eq_some_iff.1 ends
  rw [List.append_assoc, List.singleton_append, lines_append_feed, lines_append_feed,
    List.append_assoc]
  rfl

/-- A line that loses a carriage return loses its last character. -/
theorem dropReturn_eq_or (cs : List Char) : dropReturn cs = cs ∨ cs = dropReturn cs ++ ['\r'] := by
  fun_induction dropReturn cs with
  | case1 => exact .inl rfl
  | case2 => exact .inr rfl
  | case3 c cs _ ih =>
    rcases ih with same | shorter
    · exact .inl (congrArg (c :: ·) same)
    · exact .inr (congrArg (c :: ·) shorter)

/-- **Joined texts are read back** exactly when none of them has the separator. -/
theorem splitAt_intercalate_iff {sep : Char} {mark : String} (hm : mark.toList = [sep])
    {texts : List String} (h : texts ≠ []) :
    splitAt sep (mark.intercalate texts) = texts ↔ ∀ s ∈ texts, sep ∉ s.toList := by
  constructor
  · intro read s hs
    rw [← read, splitAt] at hs
    obtain ⟨p, hp, rfl⟩ := List.mem_map.1 hs
    simpa using not_mem_of_mem_pieces p hp
  · intro free
    have lists : ∀ l ∈ texts.map String.toList, sep ∉ l := List.forall_mem_map.2 free
    rw [splitAt, String.toList_intercalate, hm, pieces_intercalate lists (by simpa using h),
      List.map_map]
    exact (List.map_congr_left fun s _ => String.ofList_toList).trans (List.map_id texts)

/-! ### Texts without blanks -/

/-- The text has no blank. -/
def Unbroken (cs : List Char) : Prop :=
  ∀ c ∈ cs, isBlank c = false

instance (cs : List Char) : Decidable (Unbroken cs) :=
  List.decidableBAll _ cs

theorem isBlank_of_isDigit {c : Char} (h : c.isDigit) : isBlank c = false := by
  obtain ⟨least, most⟩ : 48 ≤ c.toNat ∧ c.toNat ≤ 57 := by
    simpa [Char.isDigit, UInt32.le_iff_toNat_le] using h
  simp only [isBlank, Bool.or_eq_false_iff, Bool.and_eq_false_iff, decide_eq_false_iff_not,
    beq_eq_false_iff_ne]
  omega

/-- A text is without blanks when its parts are. -/
theorem unbroken_append {cs ds : List Char} : Unbroken (cs ++ ds) ↔ Unbroken cs ∧ Unbroken ds :=
  List.forall_mem_append

/-- A text is without blanks when its first character is none and the others are not. -/
theorem unbroken_cons {c : Char} {cs : List Char} :
    Unbroken (c :: cs) ↔ isBlank c = false ∧ Unbroken cs :=
  List.forall_mem_cons

theorem Unbroken.not_mem {cs : List Char} (h : Unbroken cs) : ' ' ∉ cs ∧ '\n' ∉ cs :=
  ⟨fun hmem => absurd (h _ hmem) (by decide), fun hmem => absurd (h _ hmem) (by decide)⟩

namespace ControlSequence

/-- What comes behind the body of a sequence is the end of the text. -/
theorem suffix_of_afterBody? {cs rest : List Char} (h : afterBody? cs = some rest) :
    rest <:+ cs := by
  unfold afterBody? at h
  split at h
  · cases h
  · rename_i c tail hd
    split at h
    · obtain rfl := Option.some.inj h
      have dropped : c :: tail <:+ cs := by
        rw [← hd]
        exact (List.dropWhile_suffix _).trans (List.dropWhile_suffix _)
      exact (List.suffix_cons c tail).trans dropped
    · cases h

/-- What comes behind a sequence is the end of the text. -/
theorem suffix_of_after? {cs rest : List Char} (h : after? cs = some rest) : rest <:+ cs := by
  unfold after? at h
  split at h
  · cases h
  · cases h
  · rename_i c d tail
    split at h
    · exact (suffix_of_afterBody? h).trans ((List.suffix_cons d tail).trans (List.suffix_cons c _))
    · cases h

/-- **Removing control sequences** adds no character. -/
theorem strip_sublist (cs : List Char) : (strip cs).Sublist cs := by
  fun_induction strip cs with
  | case1 => exact .slnil
  | case2 c cs rest h ih => exact ih.trans (suffix_of_after? h).sublist
  | case3 c cs h ih => exact ih.cons_cons c

end ControlSequence
end Text
end Rollout
