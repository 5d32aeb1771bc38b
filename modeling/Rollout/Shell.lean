/-
# Words and variables for a shell

Between single quotes a shell takes every character as it is, so a value is
quoted by single quotes around it; a single quote inside closes the quotes,
stands behind a backslash, and opens them again. Variables are exported in
front of a command: `export HOST='10.0.0.5' TAG='v1'; command`.
-/

namespace Rollout
namespace Shell

/-- The quoted form of the characters of a value. -/
def quoteChars (value : List Char) : List Char :=
  '\'' :: (value.flatMap fun c => if c = '\'' then ['\'', '\\', '\'', '\''] else [c]) ++ ['\'']

/-- The word that a shell reads as a value. -/
def quote (value : String) : String :=
  String.ofList (quoteChars value.toList)

/-- A variable as an argument of `export`. -/
def assignment (binding : String × String) : String :=
  binding.1 ++ "=" ++ quote binding.2

/-- A command in an environment. -/
def withEnvironment (command : String) (environment : List (String × String)) : String :=
  if environment.isEmpty then command
  else "export " ++ " ".intercalate (environment.map assignment) ++ "; " ++ command

end Shell
end Rollout
