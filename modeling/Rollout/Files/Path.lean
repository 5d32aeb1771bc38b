/-
# Path texts

A path is a text whose components stand between slashes. Empty components and
`.` name nothing, except that a leading slash is the root and a leading `.` is
the working directory.

| path | file name | parent |
| --- | --- | --- |
| `a/b`, `a/b/`, `a/b/.` | `b` | `a` |
| `a` | `a` | the empty path |
| `./a` | `a` | `.` |
| `/a` | `a` | `/` |
| `a/..` | none | `a` |
| `.` | none | the empty path |
| `/`, the empty path | none | none |
-/

import Rollout.Text.Blank
import Rollout.Text.Lines

namespace Rollout
namespace Path

/-- A component that names nothing. -/
def isTrivial (piece : List Char) : Bool :=
  piece.isEmpty || piece == ['.']

/-- The path starts at the root. -/
def isAbsolute (path : List Char) : Bool :=
  Text.startsWith ['/'] path

/-- The last component, unless it is `..`. -/
def fileName? (path : List Char) : Option (List Char) :=
  match (Text.pieces '/' path).reverse.dropWhile isTrivial with
  | [] => none
  | name :: _ => if name = ['.', '.'] then none else some name

/-- The start of a path that no parent drops, and the rest. -/
def leadAndBody : List Char → List Char × List Char
  | '/' :: body => (['/'], body)
  | ['.'] => (['.'], [])
  | '.' :: '/' :: body => (['.'], '/' :: body)
  | body => ([], body)

/-- The path of the directory that holds what the path names. -/
def parent? (path : List Char) : Option (List Char) :=
  let (lead, body) := leadAndBody path
  match (Text.pieces '/' body).reverse.dropWhile isTrivial with
  | [] => if lead = ['.'] then some [] else none
  | _ :: above => some (lead ++ ['/'].intercalate (above.dropWhile isTrivial).reverse)

/-- A path as seen from a directory: an absolute path stays as it is. -/
def join (base path : List Char) : List Char :=
  if isAbsolute path || base.isEmpty then path
  else if Text.endsWith ['/'] base then base ++ path
  else base ++ '/' :: path

/-- The path with the home directory in place of a leading tilde that is a whole
component. -/
def expandHome (home : Option (List Char)) (path : List Char) : List Char :=
  match home, path with
  | some home, ['~'] => home
  | some home, '~' :: '/' :: rest => home ++ '/' :: rest
  | _, path => path

end Path
end Rollout
