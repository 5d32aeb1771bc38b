/-
# A file that is written is read back

A file is put into a directory that its path leads to, where no directory has its
name. So nothing else in the tree changes kind:

| in the tree with the file | is |
| --- | --- |
| a location that was a directory | a directory still |
| a path that could be followed | followed to the same location |
| the path of the file | followed to the file |

Main statement: `FileTree.read_of_write`.
-/

import Mathlib.Data.List.Basic
import Mathlib.Tactic.SplitIfs
import Rollout.Proofs.Files.Named

namespace Rollout
namespace FileTree

variable {tree tree' : FileTree} {l l' m dir : Location} {name : String} {bytes : ByteArray}
  {path : List Char}

/-- Leaving out one location changes nothing at the others. -/
theorem lookup_filter_ne {es : List (Location × Entry)} (h : m ≠ l) :
    (es.filter (·.1 ≠ l)).lookup m = es.lookup m := by
  induction es with
  | nil => rfl
  | cons e es ih =>
    obtain ⟨k, e⟩ := e
    by_cases here : k = l
    · have other : (m == k) = false := by simpa [here] using h
      rw [List.filter_cons_of_neg (by simpa using here), ih, List.lookup_cons, other]
    · rw [List.filter_cons_of_pos (by simpa using here), List.lookup_cons, List.lookup_cons, ih]

/-- What is put at a location is found there. -/
theorem find?_put_self (tree : FileTree) (e : Entry) (h : l ≠ []) :
    (tree.put l e).find? l = some e := by
  rw [find?, if_neg h, put, List.lookup_cons_self]

/-- What is put at one location changes nothing at another. -/
theorem find?_put_of_ne (tree : FileTree) (e : Entry) (h : m ≠ l) :
    (tree.put l e).find? m = tree.find? m := by
  have other : (m == l) = false := by simpa using h
  rw [find?, find?, put, List.lookup_cons, other]
  dsimp only
  rw [lookup_filter_ne h]

/-- **A file leaves directories as they are** where there was none. -/
theorem isDirectory_put (free : tree.isDirectory l = false) (m : Location) :
    (tree.put l (.file bytes)).isDirectory m = tree.isDirectory m := by
  by_cases same : m = l
  · subst same
    have below : m ≠ [] := by
      rintro rfl
      cases free
    rw [free, isDirectory, find?_put_self tree _ below]
  · rw [isDirectory, isDirectory, find?_put_of_ne tree _ same]

/-- A location where something is stays one. -/
theorem isSome_find?_put (e : Entry) (h : (tree.find? m).isSome = true) :
    ((tree.put l e).find? m).isSome = true := by
  by_cases same : m = l
  · subst same
    by_cases root : m = []
    · rw [root]
      rfl
    · rw [find?_put_self tree e root]
      rfl
  · rwa [find?_put_of_ne tree e same]

/-- A file that is put where no directory is stands in the way of no name. -/
theorem follow_put (free : tree.isDirectory l = false) (h : tree.follow m name = .ok l') :
    (tree.put l (.file bytes)).follow m name = .ok l' := by
  have here := isDirectory_of_follow h
  unfold follow at h ⊢
  rw [isDirectory_put free, here]
  simp only [here, Bool.not_true, Bool.false_eq_true, if_false] at h ⊢
  split_ifs at h ⊢ with _ _ kept
  · exact h
  · exact h
  · exact h
  · have found : (tree.find? (m ++ [name])).isSome = true := ‹_›
    exact absurd (isSome_find?_put _ found) kept

/-- A file that is put where no directory is stands in the way of no path. -/
theorem followAll_put (free : tree.isDirectory l = false) {names : List String}
    (h : tree.followAll m names = .ok l') :
    (tree.put l (.file bytes)).followAll m names = .ok l' := by
  induction names generalizing m with
  | nil => exact h
  | cons name names ih =>
    rw [followAll, List.foldlM_cons] at h ⊢
    obtain ⟨next, first, rest⟩ := bind_eq_ok.1 h
    exact bind_eq_ok.2 ⟨next, follow_put free first, ih rest⟩

/-- What a path gives to something to be made: the directory that all its steps but the
last lead to, and the last. -/
theorem target_eq_ok (h : tree.target path = .ok (dir, name)) :
    path.isEmpty = false ∧ path.contains '\x00' = false ∧ tree.isDirectory dir = true ∧
      tree.followAll (tree.start path) (steps path).dropLast = .ok dir ∧
      (steps path).getLast?.getD "." = name := by
  unfold target at h
  cases empty : path.isEmpty with
  | true =>
    rw [empty] at h
    cases h
  | false =>
    cases nul : path.contains '\x00' with
    | true =>
      rw [empty, nul] at h
      cases h
    | false =>
      simp only [empty, nul, Bool.false_eq_true, if_false] at h
      obtain ⟨found, hfound, h⟩ := bind_eq_ok.1 h
      obtain ⟨rfl, last⟩ := Prod.mk.inj (Except.ok.inj h)
      obtain ⟨m, before, stays⟩ := followAll_concat hfound
      have here := isDirectory_of_follow stays
      obtain rfl : m = found := by simpa [follow, here] using stays
      exact ⟨rfl, rfl, here, before, last⟩

/-- A path that does not end in a slash stays as it is. -/
theorem withoutSlashes_eq (h : Text.endsWith ['/'] path = false) : withoutSlashes path = path := by
  unfold withoutSlashes
  split
  · rfl
  · cases back : path.reverse with
    | nil => exact (List.reverse_eq_nil_iff.1 back).symm
    | cons c cs =>
      have other : c ≠ '/' := by
        rintro rfl
        simp [Text.endsWith, Text.stripEnd?, Text.stripStart?, back] at h
      rw [List.dropWhile_cons_of_neg (by simpa using other), ← back, List.reverse_reverse]

/-- The steps behind a file that is written. -/
theorem write_eq_ok (h : tree.write path bytes = .ok tree') :
    ∃ dir name, tree.target path = .ok (dir, name) ∧ name ≠ "." ∧ name ≠ ".." ∧
      tree.isDirectory (dir ++ [name]) = false ∧
      tree' = tree.put (dir ++ [name]) (.file bytes) := by
  unfold write at h
  obtain ⟨⟨dir, name⟩, target, h⟩ := bind_eq_ok.1 h
  dsimp only at h
  cases refused : Text.endsWith ['/'] path || name = "." || name = ".." with
  | true =>
    rw [refused] at h
    cases h
  | false =>
    simp only [refused, Bool.false_eq_true, if_false] at h
    simp only [Bool.or_eq_false_iff, decide_eq_false_iff_not] at refused
    obtain ⟨⟨slash, here⟩, up⟩ := refused
    rw [withoutSlashes_eq slash] at target
    have free : tree.isDirectory (dir ++ [name]) = false := by
      unfold isDirectory
      split
      · rename_i found
        rw [found] at h
        cases h
      · rfl
    refine ⟨dir, name, target, here, up, free, ?_⟩
    split at h
    · cases h
    · exact (Except.ok.inj h).symm

/-- **What is written is read back.** -/
theorem read_of_write (h : tree.write path bytes = .ok tree') : tree'.read path = .ok bytes := by
  obtain ⟨dir, name, target, here, up, free, rfl⟩ := write_eq_ok h
  obtain ⟨nonempty, nulFree, directory, before, last⟩ := target_eq_ok target
  have below : dir ++ [name] ≠ [] := by simp
  have split : steps path = (steps path).dropLast ++ [name] := by
    cases hlast : (steps path).getLast? with
    | none =>
      rw [hlast] at last
      exact absurd last.symm here
    | some step =>
      obtain rfl : step = name := by rw [← last, hlast, Option.getD_some]
      exact (List.dropLast_append_getLast? step hlast).symm
  -- The same steps lead to the directory, and the last to the file.
  have found : (tree.put (dir ++ [name]) (.file bytes)).locate path = .ok (dir ++ [name]) := by
    have step : (tree.put (dir ++ [name]) (.file bytes)).follow dir name = .ok (dir ++ [name]) := by
      simp [follow, isDirectory_put free, directory, here, up, find?_put_self tree _ below]
    rw [locate, nonempty, nulFree, split, followAll, List.foldlM_append]
    simp only [Bool.false_eq_true, if_false]
    refine bind_eq_ok.2 ⟨dir, followAll_put free before, ?_⟩
    rw [List.foldlM_cons]
    exact bind_eq_ok.2 ⟨_, step, rfl⟩
  rw [read, found]
  simp [bind, Except.bind, find?_put_self tree _ below]

/-- A text that is written is read back. -/
theorem readText_of_write {text : String} (h : tree.write path text.toUTF8 = .ok tree') :
    tree'.files.readText (String.ofList path) = .ok text := by
  have bytes : tree'.files.read (String.ofList path) = .ok text.toUTF8 := by
    rw [← read_of_write h]
    exact congrArg tree'.read String.toList_ofList
  have decoded : String.fromUTF8? text.toUTF8 = some text := dif_pos text.isValidUTF8
  rw [Files.readText, bytes]
  dsimp only
  rw [decoded]

end FileTree
end Rollout
