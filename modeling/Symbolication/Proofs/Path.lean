import Mathlib.Data.List.Basic
import Symbolication.Path

/-!
The name at the end of a path. Splitting at a slash splits the components, so a path ends in a name
exactly when only slashes and single dots stand behind it; putting a directory in front changes
nothing of that. A path without such a name is its own base name, so base names are taken once.
-/

namespace Symbolication.Path

/-- The components that name something. -/
def components (path : List Char) : List (List Char) := (pieces path).filter (!isNeutral ·)

/-- What is ignored behind a name: slashes, and a dot behind a slash. -/
inductive Ignored : List Char → Prop
  | nothing : Ignored []
  | slash {rest : List Char} (ignored : Ignored rest) : Ignored ('/' :: rest)
  | dot {rest : List Char} (ignored : Ignored rest) : Ignored ('/' :: '.' :: rest)

/-- The last component of a path, where it stands; without one, the path behind a slash is all
ignored. -/
def Ends (path : List Char) : Option (List Char) → Prop
  | none => Ignored ('/' :: path)
  | some name => '/' ∉ name ∧ ¬isNeutral name ∧ ∃ front back, path = front ++ (name ++ back) ∧
      (front = [] ∨ front.getLast? = some '/') ∧ Ignored back

end Symbolication.Path
