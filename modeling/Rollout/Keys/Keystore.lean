/-
# Keystores

A keystore text holds one keypair to a line. Blanks around a line do not
count, and neither do empty lines and lines that start with `#`.
-/

import Rollout.Failure

namespace Rollout

/-- The keypairs, in the order of their lines. -/
structure Keystore where
  keypairs : List String
  deriving DecidableEq, Repr

namespace Keystore

/-- A trimmed line that holds a keypair. -/
def isKeypair (line : List Char) : Bool :=
  match line with
  | [] => false
  | c :: _ => c != '#'

/-- The keypairs of a text. -/
def keypairLines (text : List Char) : List (List Char) :=
  ((Text.lines text).map Text.trim).filter isKeypair

/-- The keystore that a text holds. -/
def ofText (text : String) : Keystore :=
  ⟨(keypairLines text.toList).map String.ofList⟩

/-- The number of keypairs. -/
def size (k : Keystore) : Nat :=
  k.keypairs.length

/-- The keypair at a position. -/
def get? (k : Keystore) (i : Nat) : Option String :=
  k.keypairs[i]?

/-- The keypair at a position, which must be one of the keystore's. -/
def keypair (k : Keystore) (i : Nat) : Except Failure String :=
  match k.get? i with
  | some key => .ok key
  | none => .error (.of (.keyOutside i k.size))

/-- The keystore in a file. -/
def load (files : Files) (path : String) : Except Failure Keystore :=
  match files.readText path with
  | .ok text => .ok (ofText text)
  | .error e => .error ⟨.keystoreUnreadable path, [.file e]⟩

end Keystore
end Rollout
