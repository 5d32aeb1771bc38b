/-
# What trimming and cutting leave

| function | leaves |
| --- | --- |
| `trim` | a stretch of the text, without a blank at either end |
| `afterLast?` | the ending after the last separator, without a separator |
| `beforeLast?` | the beginning before that separator |

The first two are characterized: `trim_eq_iff`, `getD_afterLast?_eq_iff`.
-/

import Rollout.Text.Blank

namespace Rollout
namespace Text

/-- There is no blank at either end. -/
structure Trimmed (cs : List Char) : Prop where
  first : ∀ c, cs.head? = some c → isBlank c = false
  last : ∀ c, cs.getLast? = some c → isBlank c = false

/-- Trimming the start leaves the end of a text. -/
theorem trimStart_suffix (cs : List Char) : trimStart cs <:+ cs :=
  List.dropWhile_suffix _

/-- Trimming the end leaves the start of a text. -/
theorem prefix_of_trimEnd (cs : List Char) : trimEnd cs <+: cs := by
  have ending := trimStart_suffix cs.reverse
  rwa [← List.reverse_prefix, List.reverse_reverse] at ending

/-- No blank is first behind a trimmed start. -/
theorem head?_trimStart {cs : List Char} {c : Char} (h : (trimStart cs).head? = some c) :
    isBlank c = false := by
  have stopped := List.head?_dropWhile_not isBlank cs
  rw [trimStart] at h
  rw [h] at stopped
  exact stopped

/-- **Trimming leaves no blank** at either end. -/
theorem trimmed_trim (cs : List Char) : Trimmed (trim cs) := by
  constructor
  case first =>
    -- Trimming the end leaves the first character where it is.
    intro c hc
    obtain ⟨rest, hrest⟩ := List.head?_eq_some_iff.1 hc
    obtain ⟨cut, hcut⟩ := prefix_of_trimEnd (trimStart cs)
    have first : (trimStart cs).head? = some c := by
      rw [← hcut, ← trim, hrest]
      rfl
    exact head?_trimStart first
  case last =>
    intro c hc
    rw [trim, trimEnd, List.getLast?_reverse] at hc
    exact head?_trimStart hc

/-- `ds` is `cs` without the blanks at either end. -/
structure TrimsTo (cs ds : List Char) : Prop where
  trimmed : Trimmed ds
  around : ∃ left right, cs = left ++ ds ++ right ∧ (∀ c ∈ left, isBlank c = true) ∧
    ∀ c ∈ right, isBlank c = true

/-- Only blanks are trimmed from the start. -/
theorem exists_blanks_trimStart (cs : List Char) :
    ∃ left, cs = left ++ trimStart cs ∧ ∀ c ∈ left, isBlank c = true :=
  ⟨cs.takeWhile isBlank, List.takeWhile_append_dropWhile.symm,
    List.all_eq_true.1 List.all_takeWhile⟩

/-- Only blanks are trimmed from the end. -/
theorem exists_blanks_trimEnd (cs : List Char) :
    ∃ right, cs = trimEnd cs ++ right ∧ ∀ c ∈ right, isBlank c = true := by
  obtain ⟨left, split, blank⟩ := exists_blanks_trimStart cs.reverse
  refine ⟨left.reverse, ?_, fun c hc => blank c (List.mem_reverse.1 hc)⟩
  rw [trimEnd, ← List.reverse_append, ← split, List.reverse_reverse]

/-- **A text trims to what trimming gives.** -/
theorem trimsTo_trim (cs : List Char) : TrimsTo cs (trim cs) := by
  obtain ⟨left, start, leftBlank⟩ := exists_blanks_trimStart cs
  obtain ⟨right, ending, rightBlank⟩ := exists_blanks_trimEnd (trimStart cs)
  refine ⟨trimmed_trim cs, left, right, ?_, leftBlank, rightBlank⟩
  rw [List.append_assoc, trim, ← ending]
  exact start

/-- Blanks at the start are trimmed. -/
theorem trimStart_append {left ds : List Char} (blank : ∀ c ∈ left, isBlank c = true) :
    trimStart (left ++ ds) = trimStart ds :=
  List.dropWhile_append_of_pos blank

/-- Blanks at the end are trimmed. -/
theorem trimEnd_append {ds right : List Char} (blank : ∀ c ∈ right, isBlank c = true) :
    trimEnd (ds ++ right) = trimEnd ds := by
  have blank' : ∀ c ∈ right.reverse, isBlank c = true := fun c hc => blank c (List.mem_reverse.1 hc)
  rw [trimEnd, List.reverse_append, trimStart_append blank', ← trimEnd]

/-- Without a blank at the start nothing is trimmed there. -/
theorem trimStart_eq_self {ds : List Char} (first : ∀ c, ds.head? = some c → isBlank c = false) :
    trimStart ds = ds := by
  cases ds with
  | nil => rfl
  | cons c ds => exact List.dropWhile_cons_of_neg (by simp [first c rfl])

/-- Without a blank at the end nothing is trimmed there. -/
theorem trimEnd_eq_self {ds : List Char} (last : ∀ c, ds.getLast? = some c → isBlank c = false) :
    trimEnd ds = ds := by
  rw [trimEnd, trimStart_eq_self (fun c hc => last c (by rwa [List.head?_reverse] at hc)),
    List.reverse_reverse]

/-- **Trimming** takes off all blanks at either end, and nothing else. -/
theorem trim_eq_iff {cs ds : List Char} : trim cs = ds ↔ TrimsTo cs ds := by
  constructor
  · rintro rfl
    exact trimsTo_trim cs
  · rintro ⟨trimmed, left, right, rfl, leftBlank, rightBlank⟩
    rw [trim, List.append_assoc, trimStart_append leftBlank]
    cases ds with
    | nil =>
      -- All is blank, and trimming the start takes all of it.
      rw [List.nil_append, ← List.append_nil right, trimStart_append rightBlank]
      rfl
    | cons c ds =>
      have kept : trimStart (c :: ds ++ right) = c :: ds ++ right :=
        trimStart_eq_self fun d hd => trimmed.first d hd
      rw [kept, trimEnd_append rightBlank, trimEnd_eq_self trimmed.last]

/-- Blanks at the end make no difference. -/
theorem trim_append {right : List Char} (blank : ∀ c ∈ right, isBlank c = true) (cs : List Char) :
    trim (cs ++ right) = trim cs := by
  obtain ⟨left, after, split, leftBlank, afterBlank⟩ := (trimsTo_trim cs).around
  refine trim_eq_iff.2 ⟨trimmed_trim cs, left, after ++ right, ?_, leftBlank, fun c hc => ?_⟩
  · conv => lhs; rw [split]
    rw [List.append_assoc]
  · exact (List.mem_append.1 hc).elim (afterBlank c) (blank c)

/-- There is nothing after the last separator when there is no separator. -/
theorem afterLast?_eq_none {sep : Char} {cs : List Char} :
    afterLast? sep cs = none ↔ sep ∉ cs := by
  induction cs with
  | nil => simp [afterLast?]
  | cons c cs ih =>
    rw [afterLast?, List.mem_cons, not_or, ← ih]
    cases afterLast? sep cs with
    | none => simp [eq_comm]
    | some tail => simp

/-- **What comes after the last separator** has none. -/
theorem of_afterLast? {sep : Char} {cs tail : List Char} (h : afterLast? sep cs = some tail) :
    sep ∉ tail ∧ ∃ head, cs = head ++ sep :: tail := by
  induction cs with
  | nil => cases h
  | cons c cs ih =>
    rw [afterLast?] at h
    split at h
    · rename_i tail' htail
      obtain rfl := Option.some.inj h
      obtain ⟨free, head, rfl⟩ := ih htail
      exact ⟨free, c :: head, rfl⟩
    · rename_i hnone
      split at h
      · rename_i hc
        obtain rfl := Option.some.inj h
        exact ⟨afterLast?_eq_none.1 hnone, [], by rw [hc]; rfl⟩
      · cases h

/-- Behind the last separator there is none. -/
theorem afterLast?_eq_some {sep : Char} {cs tail : List Char} :
    afterLast? sep cs = some tail ↔ sep ∉ tail ∧ ∃ head, cs = head ++ sep :: tail := by
  refine ⟨of_afterLast?, ?_⟩
  rintro ⟨free, head, rfl⟩
  induction head with
  | nil => rw [List.nil_append, afterLast?, afterLast?_eq_none.2 free, if_pos rfl]
  | cons c head ih => rw [List.cons_append, afterLast?, ih]

/-- Before the last separator stands all that comes before it, others included. -/
theorem beforeLast?_append_cons {sep : Char} {head tail : List Char} (free : sep ∉ tail) :
    beforeLast? sep (head ++ sep :: tail) = some head := by
  have none : beforeLast? sep tail = none := by
    induction tail with
    | nil => rfl
    | cons c tail ih =>
      rw [List.mem_cons, not_or] at free
      rw [beforeLast?, ih free.2]
      exact if_neg (Ne.symm free.1)
  induction head with
  | nil =>
    rw [List.nil_append, beforeLast?, none]
    exact if_pos rfl
  | cons c head ih => rw [List.cons_append, beforeLast?, ih]

/-- **The ending of a text**: what comes after the last separator, or all of the text. -/
theorem getD_afterLast?_eq_iff {sep : Char} {cs tail : List Char} :
    (afterLast? sep cs).getD cs = tail ↔
      (∃ head, cs = head ++ sep :: tail ∧ sep ∉ tail) ∨ sep ∉ cs ∧ cs = tail := by
  cases h : afterLast? sep cs with
  | none =>
    have free := afterLast?_eq_none.1 h
    rw [Option.getD_none, and_iff_right free, or_iff_right]
    rintro ⟨head, rfl, -⟩
    exact free (List.mem_append_right head List.mem_cons_self)
  | some tail' =>
    obtain ⟨free, head, split⟩ := afterLast?_eq_some.1 h
    rw [Option.getD_some]
    constructor
    · rintro rfl
      exact .inl ⟨head, split, free⟩
    · rintro (⟨head', split', free'⟩ | ⟨absent, -⟩)
      · have same := afterLast?_eq_some.2 ⟨free', head', split'⟩
        exact Option.some.inj (h.symm.trans same)
      · exact absurd (split ▸ List.mem_append_right head List.mem_cons_self) absent

/-- A text without the separator lengthens the ending of the text before it. -/
theorem getD_afterLast?_append {sep : Char} {more : List Char} (free : sep ∉ more)
    (cs : List Char) : (afterLast? sep (cs ++ more)).getD (cs ++ more) =
      (afterLast? sep cs).getD cs ++ more := by
  have unbroken : ∀ {tail : List Char}, sep ∉ tail → sep ∉ tail ++ more := fun h => by
    rw [List.mem_append, not_or]
    exact ⟨h, free⟩
  refine getD_afterLast?_eq_iff.2 ?_
  rcases getD_afterLast?_eq_iff.1 (rfl : (afterLast? sep cs).getD cs = _) with
    ⟨head, split, tail⟩ | ⟨absent, same⟩
  · refine .inl ⟨head, ?_, unbroken tail⟩
    conv => lhs; rw [split]
    rw [List.append_assoc, List.cons_append]
  · exact .inr ⟨unbroken absent, congrArg (· ++ more) same⟩

/-- Trimming adds no character. -/
theorem TrimsTo.subset {cs ds : List Char} (h : TrimsTo cs ds) : ds ⊆ cs := by
  obtain ⟨left, right, rfl, -, -⟩ := h.around
  exact fun c hc => List.mem_append_left right (List.mem_append_right left hc)

/-- A text without blanks around it has none when it is reversed. -/
theorem Trimmed.reverse {cs : List Char} (h : Trimmed cs) : Trimmed cs.reverse where
  first c hc := h.last c (by rwa [List.head?_reverse] at hc)
  last c hc := h.first c (by rwa [List.getLast?_reverse] at hc)

/-- What has no blanks around it is found behind blanks only if it is in the text there. -/
theorem Trimmed.infix_of_blanks_append {mark left cs : List Char} (h : Trimmed mark)
    (blank : ∀ c ∈ left, isBlank c = true) (found : mark <:+: left ++ cs) : mark <:+: cs := by
  induction left with
  | nil => exact found
  | cons c left ih =>
    rw [List.forall_mem_cons] at blank
    rcases List.infix_cons_iff.1 found with start | later
    · rcases List.prefix_cons_iff.1 start with rfl | ⟨rest, rfl, -⟩
      · exact List.nil_infix
      · exact absurd blank.1 (by simp [h.first c rfl])
    · exact ih blank.2 later

/-- What has no blanks around it is found before blanks only if it is in the text there. -/
theorem Trimmed.infix_of_append_blanks {mark cs right : List Char} (h : Trimmed mark)
    (blank : ∀ c ∈ right, isBlank c = true) (found : mark <:+: cs ++ right) : mark <:+: cs := by
  rw [← List.reverse_infix] at found ⊢
  rw [List.reverse_append] at found
  exact h.reverse.infix_of_blanks_append (fun c hc => blank c (List.mem_reverse.1 hc)) found

/-- **Trimming keeps every occurrence** of a text without a blank at either end. -/
theorem TrimsTo.infix_iff {cs ds mark : List Char} (h : TrimsTo cs ds) (trimmed : Trimmed mark) :
    mark <:+: ds ↔ mark <:+: cs := by
  obtain ⟨left, right, rfl, leftBlank, rightBlank⟩ := h.around
  constructor
  · exact fun found => found.trans ⟨left, right, rfl⟩
  · exact fun found =>
      trimmed.infix_of_blanks_append leftBlank (trimmed.infix_of_append_blanks rightBlank found)

end Text
end Rollout
