/-
# Written JSON is read back

A value is written over lines, and read character by character with a bound on the
steps. The length of what was written is always enough of them.

| part | where it ends |
| --- | --- |
| a character of a string | after its escape, if it has one |
| a string | at the first quotation mark, since those in it are escaped |
| an array, an object | at its bracket, on a line of its own |

Main statement: `read?_text_append`. Numbers are left out: a number is written as any text.
-/

import Rollout.Json.Reader
import Mathlib.Tactic.SplitIfs

namespace Rollout
namespace Json

/-! ### Strings -/

/-- The two digits of a control character are read back. -/
theorem unit?_hexDigits : ∀ n : Fin 32,
    unit? '0' '0' (Nat.digitChar (n / 16)) (Nat.digitChar (n % 16)) = some n.val := by decide

/-- A control character is read back from its four digits. -/
theorem escape?_unit {c : Char} (h : c.toNat < 0x20) (rest : List Char) :
    escape? ('u' :: '0' :: '0' :: Nat.digitChar (c.toNat / 16) :: Nat.digitChar (c.toNat % 16) ::
      rest) = some (c, rest) := by
  have valid : c.toNat.isValidChar := c.valid
  have unit := unit?_hexDigits ⟨c.toNat, h⟩
  simp only at unit
  simp only [escape?, unit, if_pos valid, Char.ofNat_toNat]

/-- An escape of one letter is read as the character that it stands for. -/
theorem escape?_letter {l c : Char} (hl : l ≠ 'u') (h : letterEscape? l = some c)
    (rest : List Char) : escape? (l :: rest) = some (c, rest) := by
  rw [escape?]
  · rw [withRest, h, Option.map_some]
  · rintro _ _ _ _ _ rfl
    exact absurd rfl hl

/-- Reading a string goes on behind an escape with the character that it stands for. -/
theorem string?_escaped {seen cs rest : List Char} {c : Char} (h : escape? cs = some (c, rest)) :
    string? seen ('\\' :: cs) = string? (c :: seen) rest := by
  rw [string?]
  split
  · rename_i h'
    obtain ⟨rfl, rfl⟩ := Prod.mk.inj (Option.some.inj (h.symm.trans h'))
    rfl
  · rename_i h'
    rw [h] at h'
    cases h'

/-- **A character of a string is read back**, escaped or not. -/
theorem string?_escape (seen rest : List Char) (c : Char) :
    string? seen (escape c ++ rest) = string? (c :: seen) rest := by
  unfold escape
  split_ifs with quotes backslash _ _ _ _ _ control
  -- The seven characters that have a letter of their own.
  iterate 7
    · subst_vars
      exact string?_escaped (escape?_letter (by decide) rfl rest)
  · exact string?_escaped (escape?_unit control rest)
  · rw [List.singleton_append, string?, if_neg control]
    · exact quotes
    · exact backslash

/-- **A quoted string is read back**, whatever comes behind its last quote. -/
theorem string?_quoted (seen rest : List Char) (cs : List Char) :
    string? seen (cs.flatMap escape ++ '"' :: rest) =
      some (String.ofList (seen.reverse ++ cs), rest) := by
  induction cs generalizing seen with
  | nil => rw [List.flatMap_nil, List.nil_append, string?, List.append_nil]
  | cons c cs ih =>
    rw [List.flatMap_cons, List.append_assoc, string?_escape, ih, List.reverse_cons,
      List.append_assoc, List.singleton_append]

/-! ### Values -/

/-- No part of the value is a number, whose written form may be any text. -/
inductive Value.NumberFree : Value → Prop where
  | null : NumberFree .null
  | bool (b : Bool) : NumberFree (.bool b)
  | string (s : String) : NumberFree (.string s)
  | array {items : List Value} (h : ∀ v ∈ items, NumberFree v) : NumberFree (.array items)
  | object {members : List (String × Value)} (h : ∀ m ∈ members, NumberFree m.2) :
    NumberFree (.object members)

/-- A new line with its indent is skipped. -/
theorem skipSpace_newLine (level : Nat) (cs : List Char) :
    skipSpace (newLine level ++ cs) = skipSpace cs := by
  refine List.dropWhile_append_of_pos fun c hc => ?_
  rcases List.mem_cons.1 hc with rfl | hc
  · rfl
  · rw [List.eq_of_mem_replicate hc]
    rfl

/-- Nothing is skipped before what is no space. -/
theorem skipSpace_cons {c : Char} (h : isSpace c = false) (cs : List Char) :
    skipSpace (c :: cs) = c :: cs :=
  List.dropWhile_cons_of_neg (by simp [h])

theorem skipSpace_quoted (s : String) (cs : List Char) :
    skipSpace (quoted s ++ cs) = quoted s ++ cs := rfl

/-- A value starts neither with a blank nor with the end of a collection. -/
theorem Value.NumberFree.starts {v : Value} (h : v.NumberFree) (level : Nat) :
    ∃ c cs, v.written level = c :: cs ∧ isSpace c = false ∧ c ≠ ']' := by
  cases h with
  | null => exact ⟨_, _, rfl, by decide, by decide⟩
  | bool b => cases b <;> exact ⟨_, _, rfl, by decide, by decide⟩
  | string s => exact ⟨_, _, rfl, by decide, by decide⟩
  | @array items => cases items <;> exact ⟨_, _, rfl, by decide, by decide⟩
  | @object members => cases members <;> exact ⟨_, _, rfl, by decide, by decide⟩

/-- The text of a value gives at least one step to read it. -/
theorem Value.NumberFree.exists_steps {v : Value} (h : v.NumberFree) {level steps : Nat}
    (hsteps : (v.written level).length ≤ steps) : ∃ n, steps = n + 1 := by
  obtain ⟨c, cs, hv, -⟩ := h.starts level
  rw [hv, List.length_cons] at hsteps
  exact ⟨steps - 1, by omega⟩

/-- The value is read back in as many steps as it has characters, whatever follows. -/
def Value.ReadBack (v : Value) : Prop :=
  ∀ (level steps : Nat) (rest : List Char), (v.written level).length ≤ steps →
    value? steps (v.written level ++ rest) = some (v, rest)

/-- No value is written with space before it. -/
theorem skipSpace_written {v : Value} (h : v.NumberFree) (level : Nat) (rest : List Char) :
    skipSpace (v.written level ++ rest) = v.written level ++ rest := by
  obtain ⟨c, cs, hv, space, -⟩ := h.starts level
  rw [hv, List.cons_append, skipSpace_cons space]

/-- The items of an array are read back if each of them is. -/
theorem items?_written (level below : Nat) (rest : List Char) :
    ∀ (v : Value) (vs : List Value) (steps : Nat),
      (∀ u ∈ v :: vs, u.NumberFree ∧ u.ReadBack) →
      (v.written level).length + (writtenItems level vs).length < steps →
      items? steps (v.written level ++ (writtenItems level vs ++ (newLine below ++ ']' :: rest))) =
        some (v :: vs, rest)
  | _, _, 0, _, h => absurd h (Nat.not_lt_zero _)
  | v, [], steps + 1, back, h => by
    have first := (back v List.mem_cons_self).2 level steps (newLine below ++ ']' :: rest)
      (by omega)
    rw [writtenItems, List.nil_append, items?, first]
    simp only [Option.bind_eq_bind, Option.bind_some, skipSpace_newLine,
      skipSpace_cons (c := ']') rfl]
  | v, w :: ws, steps + 1, back, h => by
    rw [writtenItems] at h ⊢
    simp only [List.cons_append, List.length_cons, List.append_assoc, List.length_append] at h ⊢
    have first := (back v List.mem_cons_self).2 level steps (',' :: (newLine level ++
      (w.written level ++ (writtenItems level ws ++ (newLine below ++ ']' :: rest))))) (by omega)
    have others := items?_written level below rest w ws steps
      (fun u hu => back u (List.mem_cons_of_mem v hu)) (by omega)
    rw [items?, first]
    simp only [Option.bind_eq_bind, Option.bind_some, skipSpace_cons (c := ',') rfl,
      skipSpace_newLine, skipSpace_written (back w (by simp)).1, others]

/-- A member is read back if its value is: it is the last one, or others follow it. -/
theorem members?_member {v : Value} {level steps : Nat} {rest : List Char} (free : v.NumberFree)
    (read : value? steps (v.written level ++ rest) = some (v, rest)) (k : String) :
    (∀ next, skipSpace rest = '}' :: next →
      members? (steps + 1) (quoted k ++ ':' :: ' ' :: (v.written level ++ rest)) =
        some ([(k, v)], next)) ∧
    ∀ next ms after, skipSpace rest = ',' :: next →
      members? steps (skipSpace next) = some (ms, after) →
      members? (steps + 1) (quoted k ++ ':' :: ' ' :: (v.written level ++ rest)) =
        some ((k, v) :: ms, after) := by
  have value : skipSpace (' ' :: (v.written level ++ rest)) = v.written level ++ rest := by
    rw [skipSpace, List.dropWhile_cons_of_pos rfl, ← skipSpace, skipSpace_written free]
  rw [quoted, List.cons_append, List.cons_append, members?, List.append_assoc,
    List.singleton_append, string?_quoted]
  simp only [Option.bind_eq_bind, Option.bind_some, skipSpace_cons (c := ':') rfl, value, read,
    List.reverse_nil, List.nil_append, String.ofList_toList]
  constructor
  · intro next last
    simp only [last]
  · intro next ms after more others
    simp only [more, others, Option.bind_some]

/-- The members of an object are read back if the value of each of them is. -/
theorem members?_written (level below : Nat) (rest : List Char) :
    ∀ (k : String) (v : Value) (ms : List (String × Value)) (steps : Nat),
      (∀ m ∈ (k, v) :: ms, m.2.NumberFree ∧ m.2.ReadBack) →
      (v.written level).length + (writtenMembers level ms).length < steps →
      members? steps (quoted k ++ ':' :: ' ' :: (v.written level ++
        (writtenMembers level ms ++ (newLine below ++ '}' :: rest)))) = some ((k, v) :: ms, rest)
  | _, _, _, 0, _, h => absurd h (Nat.not_lt_zero _)
  | k, v, [], steps + 1, back, h => by
    obtain ⟨free, reads⟩ : v.NumberFree ∧ v.ReadBack := back (k, v) List.mem_cons_self
    have first := reads level steps (newLine below ++ '}' :: rest) (by omega)
    have last : skipSpace (newLine below ++ '}' :: rest) = '}' :: rest := by
      rw [skipSpace_newLine, skipSpace_cons rfl]
    rw [writtenMembers, List.nil_append]
    exact (members?_member free first k).1 rest last
  | k, v, (l, w) :: ms, steps + 1, back, h => by
    obtain ⟨free, reads⟩ : v.NumberFree ∧ v.ReadBack := back (k, v) List.mem_cons_self
    rw [writtenMembers] at h ⊢
    simp only [List.cons_append, List.length_cons, List.append_assoc, List.length_append] at h ⊢
    have others := members?_written level below rest l w ms steps
      (fun u hu => back u (List.mem_cons_of_mem _ hu)) (by omega)
    refine (members?_member free (reads level steps _ (by omega)) k).2 _ _ _
      (skipSpace_cons rfl _) ?_
    rw [skipSpace_newLine, skipSpace_quoted]
    exact others

/-- An array is read as its items. -/
theorem value?_array {steps : Nat} {cs rest : List Char} {vs : List Value}
    (start : ∀ r, skipSpace cs ≠ ']' :: r) (h : items? steps (skipSpace cs) = some (vs, rest)) :
    value? (steps + 1) ('[' :: cs) = some (.array vs, rest) := by
  rw [value?]
  split
  · rename_i r hr
    exact absurd hr (start r)
  · rw [h]
    rfl

/-- An object is read as its members. -/
theorem value?_object {steps : Nat} {cs rest : List Char} {ms : List (String × Value)}
    (start : ∀ r, skipSpace cs ≠ '}' :: r) (h : members? steps (skipSpace cs) = some (ms, rest)) :
    value? (steps + 1) ('{' :: cs) = some (.object ms, rest) := by
  rw [value?]
  split
  · rename_i r hr
    exact absurd hr (start r)
  · rw [h]
    rfl

/-- **A value is read back.** -/
theorem Value.NumberFree.readBack {v : Value} (h : v.NumberFree) : v.ReadBack := by
  induction h with
  | null =>
    intro level steps rest hsteps
    obtain ⟨steps, rfl⟩ := NumberFree.null.exists_steps hsteps
    rfl
  | bool b =>
    intro level steps rest hsteps
    obtain ⟨steps, rfl⟩ := (NumberFree.bool b).exists_steps hsteps
    cases b <;> rfl
  | string s =>
    intro level steps rest hsteps
    obtain ⟨steps, rfl⟩ := (NumberFree.string s).exists_steps hsteps
    rw [written, quoted, List.cons_append, List.cons_append, value?, List.append_assoc,
      List.singleton_append, string?_quoted]
    simp only [Option.map_some, List.reverse_nil, List.nil_append, String.ofList_toList]
  | @array items free back =>
    intro level steps rest hsteps
    obtain ⟨steps, rfl⟩ := (NumberFree.array free).exists_steps hsteps
    cases items with
    | nil => rfl
    | cons v vs =>
      rw [written] at hsteps ⊢
      simp only [List.cons_append, List.length_cons, List.append_assoc, List.length_append,
        List.nil_append] at hsteps ⊢
      have items := items?_written (level + 1) level rest v vs steps
        (fun u hu => ⟨free u hu, back u hu⟩) (by omega)
      have first := free v List.mem_cons_self
      -- No item starts with the bracket that would end an empty array.
      refine value?_array (fun r => ?_) ?_
      · obtain ⟨c, cs, hv, -, bracket⟩ := first.starts (level + 1)
        rw [skipSpace_newLine, skipSpace_written first, hv]
        exact fun h => bracket (List.cons.inj h).1
      · rw [skipSpace_newLine, skipSpace_written first]
        exact items
  | @object members free back =>
    intro level steps rest hsteps
    obtain ⟨steps, rfl⟩ := (NumberFree.object free).exists_steps hsteps
    rcases members with _ | ⟨⟨k, v⟩, ms⟩
    · rfl
    · rw [written] at hsteps ⊢
      simp only [List.cons_append, List.length_cons, List.append_assoc, List.length_append,
        List.nil_append] at hsteps ⊢
      have members := members?_written (level + 1) level rest k v ms steps
        (fun m hm => ⟨free m hm, back m hm⟩) (by omega)
      refine value?_object (fun r => ?_) ?_
      · rw [skipSpace_newLine, skipSpace_quoted]
        exact nofun
      · rw [skipSpace_newLine, skipSpace_quoted]
        exact members

/-- **The written form of a value is read** if nothing but blanks follows it. -/
theorem read?_text_append {v : Value} (h : v.NumberFree) (more : String) :
    read? (v.text ++ more) = if (skipSpace more.toList).isEmpty then some v else none := by
  have steps : (v.written 0).length ≤ (v.written 0 ++ more.toList).length + 1 := by
    rw [List.length_append]
    omega
  simp only [read?, Value.text, String.toList_append, String.toList_ofList,
    skipSpace_written h, h.readBack 0 _ more.toList steps]

/-- **A value without numbers is read back** from its text. -/
theorem read?_text {v : Value} (h : v.NumberFree) : read? v.text = some v := by
  simpa [skipSpace] using read?_text_append h ""

end Json
end Rollout
