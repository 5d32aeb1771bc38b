/-
# Files and directories

A path is followed from the root or the working directory, one component after
the other; every component but the last must be a directory, and a path that
ends in a slash must name one.

| what goes wrong | error |
| --- | --- |
| a component does not exist, or the path is empty | not found |
| a component on the way is a file | not a directory |
| a directory is read or written as a file | is a directory |
| a directory is made where something exists | already exists |
| a text is not encoded in UTF-8 | not a text |
-/

import Rollout.Files.Path

namespace Rollout

/-- Why a file or directory could not be used. -/
inductive FileError where
  | notFound
  | notADirectory
  | isADirectory
  | alreadyExists
  | notText
  | nulInPath
  deriving DecidableEq, Repr

/-- The words for a file error. -/
def FileError.message : FileError → String
  | notFound => "No such file or directory (os error 2)"
  | notADirectory => "Not a directory (os error 20)"
  | isADirectory => "Is a directory (os error 21)"
  | alreadyExists => "File exists (os error 17)"
  | notText => "stream did not contain valid UTF-8"
  | nulInPath => "file name contained an unexpected NUL byte"

/-- What can be read: the bytes behind a path, and whether a regular file is
there. -/
structure Files where
  read : String → Except FileError ByteArray
  isFile : String → Bool

/-- The text of a file. -/
def Files.readText (files : Files) (path : String) : Except FileError String :=
  match files.read path with
  | .error e => .error e
  | .ok bytes =>
    match String.fromUTF8? bytes with
    | some text => .ok text
    | none => .error .notText

/-- A place in the tree: the names from the root on. -/
abbrev Location := List String

/-- What is at a location. -/
inductive Entry where
  | file (bytes : ByteArray)
  | directory

/-- Two entries are of one kind and hold the same bytes. -/
def Entry.same : Entry → Entry → Bool
  | file a, file b => a.data == b.data
  | directory, directory => true
  | _, _ => false

/-- A tree of files and directories and the directory that relative paths start
from. The root is a directory and has no entry. -/
structure FileTree where
  entries : List (Location × Entry)
  workingDirectory : Location

namespace FileTree

/-- What is at a location, if anything. -/
def find? (tree : FileTree) (l : Location) : Option Entry :=
  if l = [] then some .directory else tree.entries.lookup l

/-- The location is a directory. -/
def isDirectory (tree : FileTree) (l : Location) : Bool :=
  match tree.find? l with
  | some .directory => true
  | _ => false

/-- The components to follow; a slash at the end asks for a directory. -/
def steps (path : List Char) : List String :=
  let ps := (Text.pieces '/' path).map String.ofList
  let names := ps.filter (· ≠ "")
  if ps.getLast? = some "" then names ++ ["."] else names

/-- Where following a path starts. -/
def start (tree : FileTree) (path : List Char) : Location :=
  if Path.isAbsolute path then [] else tree.workingDirectory

/-- Follows one component. -/
def follow (tree : FileTree) (l : Location) (name : String) : Except FileError Location :=
  if !tree.isDirectory l then .error .notADirectory
  else if name = "." then .ok l
  else if name = ".." then .ok l.dropLast
  else if (tree.find? (l ++ [name])).isSome then .ok (l ++ [name])
  else .error .notFound

/-- Follows components from a location. -/
def followAll (tree : FileTree) (l : Location) (names : List String) : Except FileError Location :=
  names.foldlM tree.follow l

/-- The location that a path names. -/
def locate (tree : FileTree) (path : List Char) : Except FileError Location :=
  if path.isEmpty then .error .notFound
  else if path.contains '\x00' then .error .nulInPath
  else tree.followAll (tree.start path) (steps path)

/-- The bytes of the file that a path names. -/
def read (tree : FileTree) (path : List Char) : Except FileError ByteArray := do
  match tree.find? (← tree.locate path) with
  | some (.file bytes) => .ok bytes
  | some .directory => .error .isADirectory
  | none => .error .notFound

/-- The path names a regular file. -/
def isFile (tree : FileTree) (path : List Char) : Bool :=
  match tree.read path with
  | .ok _ => true
  | .error _ => false

/-- The path names a directory. -/
def namesDirectory (tree : FileTree) (path : List Char) : Bool :=
  match tree.locate path with
  | .ok l => tree.isDirectory l
  | .error _ => false

/-- What can be read in the tree. -/
def files (tree : FileTree) : Files where
  read path := tree.read path.toList
  isFile path := tree.isFile path.toList

/-- The tree with an entry at a location. -/
def put (tree : FileTree) (l : Location) (e : Entry) : FileTree :=
  { tree with entries := (l, e) :: tree.entries.filter (·.1 ≠ l) }

/-- The directory and the name that a path gives to something to be made. -/
def target (tree : FileTree) (path : List Char) : Except FileError (Location × String) := do
  if path.isEmpty then throw .notFound
  if path.contains '\x00' then throw .nulInPath
  let names := (steps path)
  let dir ← tree.followAll (tree.start path) (names.dropLast ++ ["."])
  return (dir, names.getLast?.getD ".")

/-- The path without the slashes at its end; slashes alone stay. -/
def withoutSlashes (path : List Char) : List Char :=
  if path.all (· == '/') then path else (path.reverse.dropWhile (· == '/')).reverse

/-- The tree with a new directory. -/
def makeDirectory (tree : FileTree) (path : List Char) : Except FileError FileTree := do
  let (dir, name) ← tree.target (withoutSlashes path)
  if name = "." || name = ".." || (tree.find? (dir ++ [name])).isSome then throw .alreadyExists
  return tree.put (dir ++ [name]) .directory

/-- Makes a directory and the ones above it that are missing. Every parent is
shorter than its path, so as many rounds as the path has characters suffice. -/
def makeDirectoriesIn (tree : FileTree) : (rounds : Nat) → List Char → Except FileError FileTree
  | 0, _ => .error .notFound
  | rounds + 1, path =>
    if path.isEmpty then .ok tree
    else
      match tree.makeDirectory path with
      | .ok made => .ok made
      | .error .notFound =>
        match Path.parent? path with
        | none => .error .notFound
        | some parent =>
          match makeDirectoriesIn tree rounds parent with
          | .error e => .error e
          | .ok tree =>
            match tree.makeDirectory path with
            | .ok made => .ok made
            | .error e => if tree.namesDirectory path then .ok tree else .error e
      | .error e => if tree.namesDirectory path then .ok tree else .error e

/-- The tree with a directory and all directories above it. -/
def makeDirectories (tree : FileTree) (path : List Char) : Except FileError FileTree :=
  makeDirectoriesIn tree (path.length + 1) path

/-- The tree with a file, new or in place of the old one. A path that ends in a
slash names no file, whatever is there. -/
def write (tree : FileTree) (path : List Char) (bytes : ByteArray) : Except FileError FileTree := do
  let (dir, name) ← tree.target (withoutSlashes path)
  if Text.endsWith ['/'] path || name = "." || name = ".." then throw .isADirectory
  match tree.find? (dir ++ [name]) with
  | some .directory => throw .isADirectory
  | _ => return tree.put (dir ++ [name]) (.file bytes)

/-- What is in the tree and was not in another. -/
def since (tree before : FileTree) : List (Location × Entry) :=
  tree.entries.filter fun (l, e) => !(before.find? l).any e.same

end FileTree
end Rollout
