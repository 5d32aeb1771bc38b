/-
# A file has a name

A path without a file name ends in a step that stays in a directory or leaves it
for the one above:

| the path | its last step |
| --- | --- |
| ends in a slash | `.` |
| ends in the component `.` or `..` | that component |

Such a path names a directory if it names anything, as every location that is
reached lies in a directory.

Main statement: `FileTree.fileName_of_isFile`.
-/

import Rollout.Files.Tree
import Rollout.Proofs.Text.Lines

namespace Rollout

/-- Steps succeed when each of them does. -/
theorem bind_eq_ok {ε α β : Type} {x : Except ε α} {k : α → Except ε β} {b : β} :
    x >>= k = .ok b ↔ ∃ a, x = .ok a ∧ k a = .ok b := by
  cases x <;> simp [bind, Except.bind]

namespace FileTree

/-- The working directory and all directories above it are there. -/
def HasWorkingDirectory (tree : FileTree) : Prop :=
  ∀ m, m <+: tree.workingDirectory → tree.isDirectory m = true

/-- The location lies in a directory, and so does every directory above it. -/
def Placed (tree : FileTree) (l : Location) : Prop :=
  ∀ m, m <+: l.dropLast → tree.isDirectory m = true

/-- The last step of a path without a file name. -/
theorem steps_of_unnamed {path : List Char} (h : Path.fileName? path = none) :
    ∃ names, steps path = names ++ ["."] ∨ steps path = names ++ [".."] := by
  obtain ⟨front, last, hps⟩ : ∃ front last, Text.pieces '/' path = front ++ [last] :=
    ⟨_, _, (List.dropLast_concat_getLast (Text.pieces_ne_nil '/' path)).symm⟩
  by_cases hempty : last = []
  · -- The path ends in a slash, or is empty.
    exact ⟨_, .inl (if_pos (by simp [hps, hempty]))⟩
  have nonempty : String.ofList last ≠ "" := by simpa using hempty
  have whole : steps path =
      (front.map String.ofList).filter (· ≠ "") ++ [String.ofList last] := by
    simp [steps, hps, hempty]
  by_cases hdot : last = ['.']
  · exact ⟨_, .inl (by rw [whole, hdot])⟩
  · have named : Path.isTrivial last = false := by simp [Path.isTrivial, hempty, hdot]
    have up : last = ['.', '.'] := by simpa [Path.fileName?, hps, named] using h
    exact ⟨_, .inr (by rw [whole, up])⟩

variable {tree : FileTree} {l l' : Location} {name : String}

/-- Only a directory has something in it. -/
theorem isDirectory_of_follow (h : tree.follow l name = .ok l') : tree.isDirectory l = true := by
  cases hdir : tree.isDirectory l with
  | true => rfl
  | false => simp [follow, hdir] at h

/-- One component leads from a location in a directory to another. -/
theorem Placed.follow (placed : tree.Placed l) (h : tree.follow l name = .ok l') :
    tree.Placed l' := by
  have here := isDirectory_of_follow h
  have above : ∀ m, m <+: l → tree.isDirectory m = true := by
    intro m hm
    rcases List.eq_nil_or_concat l with rfl | ⟨front, last, rfl⟩
    · rwa [List.prefix_nil.1 hm]
    · rw [List.concat_eq_append] at hm here placed
      rcases List.prefix_concat_iff.1 hm with rfl | hm
      · exact here
      · exact placed m (by rwa [List.dropLast_concat])
  unfold FileTree.follow at h
  simp only [here, Bool.not_true, Bool.false_eq_true, if_false] at h
  split at h
  · obtain rfl := Except.ok.inj h
    exact placed
  · split at h
    · obtain rfl := Except.ok.inj h
      exact fun m hm => above m (hm.trans ((List.dropLast_prefix _).trans (List.dropLast_prefix _)))
    · split at h
      · obtain rfl := Except.ok.inj h
        intro m hm
        rw [List.dropLast_concat] at hm
        exact above m hm
      · cases h

/-- Names that lead from a placed location lead to one. -/
theorem Placed.followAll (placed : tree.Placed l) {names : List String}
    (h : tree.followAll l names = .ok l') : tree.Placed l' := by
  induction names generalizing l with
  | nil =>
    obtain rfl := Except.ok.inj h
    exact placed
  | cons name names ih =>
    rw [FileTree.followAll, List.foldlM_cons] at h
    obtain ⟨m, hm, h⟩ := bind_eq_ok.1 h
    exact ih (placed.follow hm) h

/-- The last component is followed from where those before it lead. -/
theorem followAll_concat {names : List String} (h : tree.followAll l (names ++ [name]) = .ok l') :
    ∃ m, tree.followAll l names = .ok m ∧ tree.follow m name = .ok l' := by
  rw [followAll, List.foldlM_append] at h
  obtain ⟨m, before, h⟩ := bind_eq_ok.1 h
  rw [List.foldlM_cons] at h
  obtain ⟨l, hl, h⟩ := bind_eq_ok.1 h
  exact ⟨m, before, hl.trans h⟩

/-- Every path starts at a placed location. -/
theorem placed_start (home : tree.HasWorkingDirectory) (path : List Char) :
    tree.Placed (tree.start path) := by
  unfold start
  split
  · intro m hm
    obtain rfl := List.prefix_nil.1 hm
    rfl
  · exact fun m hm => home m (hm.trans (List.dropLast_prefix _))

/-- A path without a file name names a directory, if anything. -/
theorem isDirectory_of_unnamed (home : tree.HasWorkingDirectory) {path : List Char}
    (unnamed : Path.fileName? path = none) (h : tree.locate path = .ok l) :
    tree.isDirectory l = true := by
  have followed : tree.followAll (tree.start path) (steps path) = .ok l := by
    unfold locate at h
    split at h
    · cases h
    · split at h
      · cases h
      · exact h
  obtain ⟨names, last | last⟩ := steps_of_unnamed unnamed
  · rw [last] at followed
    obtain ⟨m, -, hm⟩ := followAll_concat followed
    have here := isDirectory_of_follow hm
    obtain rfl : m = l := by simpa [follow, here] using hm
    exact here
  · rw [last] at followed
    obtain ⟨m, before, hm⟩ := followAll_concat followed
    have placed := (placed_start home path).followAll before
    have here := isDirectory_of_follow hm
    obtain rfl : m.dropLast = l := by simpa [follow, here] using hm
    exact placed _ (List.prefix_refl _)

/-- **What is a regular file has a name.** -/
theorem fileName_of_isFile (home : tree.HasWorkingDirectory) {path : List Char}
    (h : tree.isFile path = true) : ∃ name, Path.fileName? path = some name := by
  refine Option.ne_none_iff_exists'.1 fun unnamed => ?_
  unfold isFile read at h
  cases hl : tree.locate path with
  | error e => simp [hl, bind, Except.bind] at h
  | ok l =>
    have directory := isDirectory_of_unnamed home unnamed hl
    unfold isDirectory at directory
    split at directory
    · rename_i found
      simp [hl, bind, Except.bind, found] at h
    · cases directory

end FileTree
end Rollout
