/-
# Texts that are read as they are

A text that is written into a command without quotes is read as it is only if no
character in it means anything to the shell:

| the text | is read as it is |
| --- | --- |
| inside of a word | exactly when every character is ordinary (`IsPlain`) |
| as a word | exactly when it is not empty either, and starts with neither `~` nor `#` (`IsWord`) |

Main statement: `Complete.tokens?_row_iff`. Texts that follow a command, with spaces
between them, are read as words exactly when each of them is one. A character that
means something is missing from what is read, or ends a word too early.
-/

import Rollout.Proofs.Shell.Reader
import Mathlib.Algebra.Ring.Nat
import Mathlib.Data.List.Basic

namespace Rollout
namespace Shell

/-- The character is taken as it is outside quotes, unless a word starts with it. -/
def isOrdinary (c : Char) : Bool :=
  !(c == '\\' || c == '\'' || c == '"' || isGap c || isOperator c || isReplaced c)

/-- Every character is ordinary. -/
def IsPlain (cs : List Char) : Prop :=
  ∀ c ∈ cs, isOrdinary c

instance (cs : List Char) : Decidable (IsPlain cs) :=
  List.decidableBAll _ cs

/-- The text is plain, and a word can start with it. -/
structure IsWord (cs : List Char) : Prop where
  plain : IsPlain cs
  starts : ∃ c, cs.head? = some c ∧ c ≠ '~' ∧ c ≠ '#'

instance (cs : List Char) : Decidable (IsWord cs) :=
  decidable_of_iff (IsPlain cs ∧ cs.head?.any fun c => c != '~' && c != '#')
    ⟨fun h => ⟨h.1, by simpa [Option.any_eq_true] using h.2⟩,
      fun h => ⟨h.plain, by simpa [Option.any_eq_true] using h.starts⟩⟩

/-- Between two words the text is read as one word. -/
def OneWord (cs : List Char) (w : List Letter) : Prop :=
  ∀ ts, (Reading.mk ts none .plain).read cs = ⟨ts, some w, .plain⟩

variable {r : Reading} {ts : List Token} {w : List Letter} {c : Char} {cs : List Char}

namespace Reading

/-! ### Plain texts -/

/-- An ordinary character is none that the shell treats in a way of its own. -/
theorem isOrdinary_iff : isOrdinary c ↔ c ≠ '\\' ∧ c ≠ '\'' ∧ c ≠ '"' ∧ isGap c = false ∧
    isOperator c = false ∧ isReplaced c = false := by
  simp [isOrdinary, and_assoc]

/-- An ordinary character is a letter, unless a word would start with it and cannot. -/
theorem feed_ordinary (plain : r.mode = .plain) (h : isOrdinary c)
    (starts : r.word = none → c ≠ '~' ∧ c ≠ '#') : r.feed c = r.added (.literal c) := by
  obtain ⟨backslash, single, double, gap, operator, replaced⟩ := isOrdinary_iff.1 h
  have tilde : (r.word.isNone && c == '~') = false := by simpa using fun h => (starts h).1
  have hash : (r.word.isNone && c == '#') = false := by simpa using fun h => (starts h).2
  rw [feed, plain]
  simp only [feedPlain, if_neg backslash, if_neg single, if_neg double, gap, operator, replaced,
    tilde, hash, Bool.false_eq_true, if_false]

/-- An ordinary character goes to the word that it stands in. -/
theorem feed_letter (h : isOrdinary c) :
    (Reading.mk ts (some w) .plain).feed c = ⟨ts, some (w ++ [.literal c]), .plain⟩ :=
  feed_ordinary rfl h nofun

/-- An ordinary character starts a word, except those that mean something at its start. -/
theorem feed_first (h : isOrdinary c) (starts : c ≠ '~' ∧ c ≠ '#') :
    (Reading.mk ts none .plain).feed c = ⟨ts, some [.literal c], .plain⟩ :=
  feed_ordinary rfl h fun _ => starts

/-- A plain text goes to the word that it stands in. -/
theorem read_plain (h : IsPlain cs) :
    (Reading.mk ts (some w) .plain).read cs = ⟨ts, some (w ++ letters cs), .plain⟩ := by
  induction cs generalizing w with
  | nil => simp [letters]
  | cons c cs ih =>
    rw [read_cons, feed_letter (h c List.mem_cons_self),
      ih fun d hd => h d (List.mem_cons_of_mem c hd)]
    simp [letters]

end Reading

/-- A plain text that may start a word is one. -/
theorem IsWord.oneWord (h : IsWord cs) : OneWord cs (letters cs) := by
  intro ts
  obtain ⟨c, hc, starts⟩ := h.starts
  obtain ⟨rest, rfl⟩ := List.head?_eq_some_iff.1 hc
  rw [Reading.read_cons, Reading.feed_first (h.plain c List.mem_cons_self) starts,
    Reading.read_plain fun d hd => h.plain d (List.mem_cons_of_mem c hd)]
  rfl

namespace Reading

/-! ### Rows of words -/

/-- What is closed to some tokens is finished with these. -/
theorem finished?_of_closed (h : r.closed = ⟨ts, none, .plain⟩) :
    r.finished? = some ts := by
  have plain : r.mode = .plain := congrArg mode h
  rw [finished?, if_pos (.inl plain), h]

/-- A space closes a word, and a semicolon does so before it is read itself. -/
theorem feed_of_closed (h : r.closed = ⟨ts, none, .plain⟩) :
    r.feed ' ' = ⟨ts, none, .plain⟩ ∧ r.feed ';' = ⟨ts ++ [.operator ';'], none, .plain⟩ := by
  have plain : r.mode = .plain := congrArg mode h
  have gap : r.feed ' ' = r.closed := by rw [feed, plain]; rfl
  have operator : r.feed ';' = r.operated ';' := by rw [feed, plain]; rfl
  rw [gap, operator, operated, h]
  exact ⟨rfl, rfl⟩

/-- Between words there is none to be closed. -/
theorem closed_between (ts : List Token) :
    (Reading.mk ts none .plain).closed = ⟨ts, none, .plain⟩ := by
  simp [closed]

/-- **Words joined by spaces** are read one after the other. -/
theorem closed_read_row {α : Type} {f : α → List Char} {g : α → List Letter} :
    ∀ (as : List α) (ts : List Token), (∀ a ∈ as, OneWord (f a) (g a)) →
      ((Reading.mk ts none .plain).read ([' '].intercalate (as.map f))).closed =
        ⟨ts ++ as.map fun a => .word (g a), none, .plain⟩
  | [], ts, _ => by simp [closed]
  | [a], ts, h => by
    rw [List.map_singleton, List.intercalate_singleton, h a List.mem_cons_self ts]
    rfl
  | a :: b :: as, ts, h => by
    have one : ((Reading.mk ts none .plain).read (f a)).closed =
        ⟨ts ++ [.word (g a)], none, .plain⟩ := by
      rw [h a List.mem_cons_self ts]
      rfl
    have rest := closed_read_row (b :: as) (ts ++ [.word (g a)])
      fun c hc => h c (List.mem_cons_of_mem a hc)
    rw [List.map_cons, List.map_cons, List.intercalate_cons_cons, List.append_assoc, read_append,
      List.singleton_append, read_cons, (feed_of_closed one).1, ← List.map_cons, rest]
    simp

end Reading

/-! ### How much is read

Every character makes a reading larger by one at most: it is a letter, or it ends a
word. Characters that quote and characters that are replaced are neither. -/

/-- The number of letters that are characters. -/
def Letter.size : Letter → Nat
  | .literal _ => 1
  | .replaced _ => 0

/-- The number of letters that are characters, and one more for a word. -/
def Token.size : Token → Nat
  | .word w => (w.map Letter.size).sum + 1
  | .operator _ => 0

/-- A backslash in double quotes counts at once, since it may turn out to be a letter. -/
def Mode.size : Mode → Nat
  | .doubleEscaped => 1
  | _ => 0

namespace Reading

/-- The size of the tokens and of the word under way. -/
def extent (r : Reading) : Nat :=
  (r.tokens.map Token.size).sum + ((r.word.getD []).map Letter.size).sum

/-- The size of what has been read. -/
def size (r : Reading) : Nat :=
  r.extent + r.mode.size

@[simp] theorem extent_within (r : Reading) (mode : Mode) : (r.within mode).extent = r.extent := rfl

@[simp] theorem extent_opened (r : Reading) : r.opened.extent = r.extent := rfl

/-- A letter adds its own size to the extent. -/
@[simp] theorem extent_added (r : Reading) (l : Letter) :
    (r.added l).extent = r.extent + l.size := by
  simp [extent, added]
  omega

/-- Closing a word adds one to the extent, for the gap behind it. -/
theorem extent_closed (r : Reading) :
    r.closed.extent = r.extent + if r.word.isSome then 1 else 0 := by
  obtain ⟨ts, _ | w, mode⟩ := r <;> simp [extent, closed, Token.size]
  omega

/-- An operator closes the word before it. -/
@[simp] theorem extent_operated (r : Reading) (c : Char) :
    (r.operated c).extent = r.closed.extent := by
  simp [extent, operated, Token.size]

/-- A mode of size zero adds nothing to what has been read. -/
theorem size_of_mode {mode : Mode} (h : r.mode = mode) (none : mode.size = 0) :
    r.size = r.extent := by
  rw [size, h, none, Nat.add_zero]

@[simp] theorem size_within (r : Reading) (mode : Mode) :
    (r.within mode).size = r.extent + mode.size := rfl

/-- A letter adds its own size. -/
@[simp] theorem size_added (r : Reading) (l : Letter) : (r.added l).size = r.size + l.size := by
  rw [size, size, extent_added, mode_added]
  omega

/-- Closing a word adds one for the gap behind it. -/
theorem size_closed (r : Reading) : r.closed.size = r.size + if r.word.isSome then 1 else 0 := by
  rw [size, size, extent_closed, mode_closed]
  omega

@[simp] theorem size_operated (r : Reading) (c : Char) : (r.operated c).size = r.closed.size := by
  rw [size, size, extent_operated, mode_operated, mode_closed]

/-- Closing adds no more than one. -/
theorem size_closed_le (r : Reading) : r.closed.size ≤ r.size + 1 := by
  rw [size_closed]
  split <;> omega

/-- What a character does outside quotes. -/
inductive PlainStep (r : Reading) (c : Char) : Reading → Prop where
  | letter (ordinary : isOrdinary c) (starts : r.word = none → c ≠ '~' ∧ c ≠ '#') :
    PlainStep r c (r.added (.literal c))
  | gap (h : isGap c) : PlainStep r c r.closed
  | operator (h : isOperator c) : PlainStep r c (r.operated c)
  /-- It quotes, it is replaced, or a comment starts with it. -/
  | silent {s : Reading} (size : s.size = r.size) : PlainStep r c s

/-- What a character does outside quotes is one of a few steps. -/
theorem plainStep_feed (plain : r.mode = .plain) (c : Char) : PlainStep r c (r.feed c) := by
  have size : r.extent = r.size := (size_of_mode plain rfl).symm
  rw [feed, plain]
  simp only [feedPlain]
  split_ifs with backslash single double gap operator replaces tilde hash
  · exact .silent size
  · exact .silent size
  · exact .silent size
  · exact .gap gap
  · exact .operator operator
  · exact .silent (size_added r _)
  · exact .silent (size_added r _)
  · exact .silent size
  · refine .letter (isOrdinary_iff.2 ⟨backslash, single, double, ?_, ?_, ?_⟩) fun none => ?_
    · simpa using gap
    · simpa using operator
    · simpa using replaces
    · simpa [none] using And.intro tilde hash

/-- **A character adds no more than one** to what has been read. -/
theorem size_feed_le (r : Reading) (c : Char) : (r.feed c).size ≤ r.size + 1 := by
  have closed := size_closed_le r
  cases hm : r.mode with
  | plain =>
    generalize hs : r.feed c = s
    cases hs ▸ plainStep_feed hm c with
    | letter => exact Nat.le_of_eq (size_added r _)
    | gap => exact closed
    | operator => rwa [size_operated]
    | silent same => omega
  | escaped | single =>
    have size := size_of_mode hm rfl
    simp only [feed, hm]
    split_ifs <;> simp [size, Mode.size, Letter.size]
  | comment =>
    have size : r.closed.size = r.closed.extent := size_of_mode hm rfl
    simp only [feed, hm]
    split_ifs
    · rwa [size_within, extent_operated, ← size]
    · exact Nat.le_succ _
  | double =>
    have size := size_of_mode hm rfl
    simp only [feed, hm, feedDouble]
    split_ifs <;> simp [size, Mode.size, Letter.size]
  | doubleEscaped =>
    have size : r.size = r.extent + 1 := by rw [size, hm, Mode.size]
    simp only [feed, hm, feedDoubleEscaped]
    split_ifs <;> simp [size, Mode.size, Letter.size]
    omega

/-- A text adds no more than its length to what has been read. -/
theorem size_read_le (r : Reading) (cs : List Char) : (r.read cs).size ≤ r.size + cs.length := by
  induction cs generalizing r with
  | nil => exact Nat.le_refl _
  | cons c cs ih =>
    have first := size_feed_le r c
    have others := ih (r.feed c)
    rw [read_cons, List.length_cons]
    omega

/-- Every character that is read counts. -/
def Exact (r : Reading) (cs : List Char) : Prop :=
  (r.read cs).size = r.size + cs.length

/-- A text that adds its whole length does so from its first character on. -/
theorem Exact.cons (h : Exact r (c :: cs)) :
    (r.feed c).size = r.size + 1 ∧ Exact (r.feed c) cs := by
  have first := size_feed_le r c
  have others := size_read_le (r.feed c) cs
  rw [Exact, read_cons, List.length_cons] at h
  rw [Exact]
  omega

/-- Outside quotes a character that counts is a letter, or the word under way ends. -/
theorem size_feed_plain (plain : r.mode = .plain) (h : (r.feed c).size = r.size + 1) :
    (isOrdinary c ∧ (r.word = none → c ≠ '~' ∧ c ≠ '#')) ∨
      (r.word ≠ none ∧ r.closed.tokens <+: (r.feed c).tokens) := by
  have ends (closed : r.closed.size = r.size + 1) : r.word ≠ none := by
    rw [size_closed] at closed
    rintro none
    simp [none] at closed
  generalize hs : r.feed c = s at h
  cases hs ▸ plainStep_feed plain c with
  | letter ordinary starts => exact .inl ⟨ordinary, starts⟩
  | gap => exact .inr ⟨ends h, List.prefix_rfl⟩
  | operator => exact .inr ⟨ends ((size_operated r c).symm.trans h), List.prefix_append _ _⟩
  | silent same => omega

theorem tokens_closed (r : Reading) : r.tokens <+: r.closed.tokens :=
  List.prefix_append _ _

/-! ### Rows that are read as they are -/

/-- Different texts are different letters. -/
theorem letters_injective : Function.Injective letters :=
  List.map_injective_iff.2 fun _ _ => Letter.literal.inj

/-- The rest of a word is plain if all of it counts and no word ends in it. -/
theorem isPlain_of_exact {p ds : List Char} {F : List Token}
    (exact : Exact ⟨[], some (letters p), .plain⟩ (cs ++ ds))
    (h : ((Reading.mk [] (some (letters p)) .plain).read (cs ++ ds)).closed.tokens =
      .word (letters (p ++ cs)) :: F) : IsPlain cs := by
  induction cs generalizing p with
  | nil => exact List.forall_mem_nil _
  | cons c cs ih =>
    obtain ⟨counts, exact⟩ := exact.cons
    rw [List.cons_append, read_cons] at h
    rcases size_feed_plain rfl counts with ⟨ordinary, -⟩ | ⟨-, ended⟩
    · have next : (Reading.mk [] (some (letters p)) .plain).feed c =
          ⟨[], some (letters (p ++ [c])), .plain⟩ := by
        rw [feed_letter ordinary, letters, letters, List.map_append, List.map_singleton]
      rw [next] at exact
      rw [next, List.append_cons p c cs] at h
      exact List.forall_mem_cons.2 ⟨ordinary, ih exact h⟩
    · -- The word would have ended before this character.
      have whole := (ended.trans (tokens_read _ (cs ++ ds))).trans (tokens_closed _)
      rw [h] at whole
      have same := letters_injective (Token.word.inj (List.cons_prefix_cons.1 whole).1)
      simp at same

/-- The first of a row of words is one if all of it counts and it is read. -/
theorem isWord_of_exact {ds : List Char} {F : List Token} (hds : ds = [] ∨ ds.head? = some ' ')
    (exact : Exact start (cs ++ ds))
    (h : (start.read (cs ++ ds)).closed.tokens = .word (letters cs) :: F) : IsWord cs := by
  cases cs with
  | nil =>
    rcases hds with rfl | hds
    · cases h
    · obtain ⟨rest, rfl⟩ := List.head?_eq_some_iff.1 hds
      cases exact.cons.1
  | cons c cs =>
    obtain ⟨counts, exact⟩ := exact.cons
    rw [List.cons_append, read_cons] at h
    rcases size_feed_plain rfl counts with ⟨ordinary, first⟩ | ⟨none, -⟩
    · have next : start.feed c = ⟨[], some (letters [c]), .plain⟩ :=
        feed_first ordinary (first rfl)
      rw [next] at exact h
      exact ⟨List.forall_mem_cons.2 ⟨ordinary, isPlain_of_exact exact h⟩, c, rfl, first rfl⟩
    · exact absurd rfl none

/-- A text is finished outside quotes only, with the tokens that closing leaves. -/
theorem finished?_eq_some (h : r.finished? = some ts) :
    (r.mode = .plain ∨ r.mode = .comment) ∧ r.closed.tokens = ts := by
  rw [finished?] at h
  split_ifs at h with done
  exact ⟨done, Option.some.inj h⟩

/-- Words in a row are as large as the text of them with a gap behind. -/
theorem size_row : ∀ {words : List (List Char)}, words ≠ [] →
    ((words.map fun w => Token.word (letters w)).map Token.size).sum =
      ([' '].intercalate words).length + 1
  | [], h => absurd rfl h
  | [w], _ => by simp [Token.size, letters, Letter.size, Function.comp_def]
  | w :: v :: words, _ => by
    have rest := size_row (List.cons_ne_nil v words)
    rw [List.map_cons, List.map_cons, List.sum_cons, rest, List.intercalate_cons_cons]
    simp [Token.size, letters, Letter.size, Function.comp_def]
    omega

/-- In a row that is read as its words all characters count. -/
theorem exact_of_finished? {words : List (List Char)} (hw : words ≠ [])
    (h : (start.read ([' '].intercalate words)).finished? =
      some (words.map fun w => .word (letters w))) : Exact start ([' '].intercalate words) := by
  -- The words and the spaces between them leave no room for a character that does not count.
  obtain ⟨done, tokens⟩ := finished?_eq_some h
  generalize hr : start.read ([' '].intercalate words) = r at done tokens
  have closed : r.closed.extent = ([' '].intercalate words).length + 1 := by
    rw [← size_row hw, ← tokens]
    rfl
  have most := size_read_le start ([' '].intercalate words)
  have size : r.size = r.extent := done.elim (size_of_mode · rfl) (size_of_mode · rfl)
  rw [extent_closed] at closed
  rw [hr] at most
  rw [Exact, hr]
  have none : start.size = 0 := rfl
  split at closed <;> omega

/-- **Texts that are read back as words** when they are joined by spaces are words themselves. -/
theorem isWord_of_finished? : ∀ {words : List (List Char)},
    (start.read ([' '].intercalate words)).finished? =
      some (words.map fun w => .word (letters w)) → ∀ w ∈ words, IsWord w
  | [], _ => List.forall_mem_nil _
  | [w], h => by
    have exact := exact_of_finished? (List.cons_ne_nil w []) h
    rw [List.intercalate_singleton] at exact h
    have tokens : (start.read (w ++ [])).closed.tokens = [.word (letters w)] := by
      rw [List.append_nil, (finished?_eq_some h).2, List.map_singleton]
    rw [← List.append_nil w] at exact
    exact List.forall_mem_singleton.2 (isWord_of_exact (.inl rfl) exact tokens)
  | w :: v :: words, h => by
    have exact := exact_of_finished? (List.cons_ne_nil w _) h
    rw [List.intercalate_cons_cons, List.append_assoc, List.singleton_append] at exact h
    have first : IsWord w := isWord_of_exact (.inr rfl) exact (finished?_eq_some h).2
    have ended : (start.read w).closed = ⟨[.word (letters w)], none, .plain⟩ := by
      rw [start, first.oneWord []]
      rfl
    -- After the first word the row goes on like one from the start.
    rw [read_append, read_cons, (feed_of_closed ended).1, read_between, finished?_after,
      Option.map_eq_some_iff] at h
    obtain ⟨ts, rest, same⟩ := h
    cases same
    exact List.forall_mem_cons.2 ⟨first, isWord_of_finished? rest⟩

/-- **Words joined by spaces** are read as these words exactly when each of them is one. -/
theorem finished?_row_iff (words : List (List Char)) :
    (start.read ([' '].intercalate words)).finished? =
      some (words.map fun w => .word (letters w)) ↔ ∀ w ∈ words, IsWord w := by
  refine ⟨isWord_of_finished?, fun h => ?_⟩
  have closed := closed_read_row (f := id) words [] fun w hw => (h w hw).oneWord
  rw [List.map_id, List.nil_append] at closed
  exact finished?_of_closed closed

end Reading

/-! ### Commands that words follow -/

/-- The command ends outside of quotes and comments, so words can follow it. -/
def Complete (command : String) (ts : List Token) : Prop :=
  (Reading.start.read command.toList).closed = ⟨ts, none, .plain⟩

instance (command : String) (ts : List Token) : Decidable (Complete command ts) :=
  inferInstanceAs (Decidable (_ = _))

/-- A complete command is read as its tokens. -/
theorem Complete.tokens?_eq {command : String} (h : Complete command ts) :
    tokens? command = some ts :=
  Reading.finished?_of_closed h

/-- After a space the reading goes on between two words. -/
theorem Complete.read_append {command : String} (h : Complete command ts) (more : String) :
    Reading.start.read (command ++ " " ++ more).toList =
      (Reading.mk ts none .plain).read more.toList := by
  have space : " ".toList = [' '] := rfl
  rw [String.toList_append, String.toList_append, space, Reading.read_append, Reading.read_append,
    Reading.read_cons, (Reading.feed_of_closed h).1, Reading.read_nil]

/-- A complete command stays so with a word behind it. -/
theorem Complete.append_word {command word : String} (h : Complete command ts)
    (hw : IsWord word.toList) : Complete (command ++ " " ++ word) (ts ++ [.ofText word]) := by
  rw [Complete, h.read_append, hw.oneWord ts]
  rfl

/-- **Words after a command** are read as these words exactly when each of them is one. -/
theorem Complete.tokens?_row_iff {command : String} (h : Complete command ts)
    (words : List String) :
    tokens? (command ++ " " ++ " ".intercalate words) = some (ts ++ words.map .ofText) ↔
      ∀ w ∈ words, IsWord w.toList := by
  have row : Reading.start.read (command ++ " " ++ " ".intercalate words).toList =
      (Reading.start.read ([' '].intercalate (words.map String.toList))).after ts := by
    rw [h.read_append, Reading.read_between, String.toList_intercalate]
    rfl
  have words_eq : words.map Token.ofText =
      (words.map String.toList).map fun w => .word (letters w) := by
    rw [List.map_map]
    rfl
  have iff := Reading.finished?_row_iff (words.map String.toList)
  rw [List.forall_mem_map] at iff
  rw [tokens?, row, Reading.finished?_after, words_eq, ← iff]
  have front := Option.map_injective (List.append_right_injective ts)
  rw [← Option.map_some (f := (ts ++ ·))]
  exact front.eq_iff

end Shell
end Rollout
