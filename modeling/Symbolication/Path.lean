/-!
File paths with `/` between components. Joining keeps both texts as they are; the base name ignores
what a file system ignores: repeated and trailing slashes and single dots.
-/

namespace Symbolication.Path

def isAbsolute (path : String) : Bool := path.toList.head? = some '/'

/-- Puts a name below a directory. One slash is inserted unless the directory ends in one or is
empty, and an absolute name stands for itself. -/
def join (directory name : String) : String :=
  if isAbsolute name then name
  else if directory.toList.getLast?.all (· = '/') then directory ++ name
  else directory ++ "/" ++ name

/-- The texts between slashes, at least one. -/
def pieces : List Char → List (List Char)
  | [] => [[]]
  | character :: rest =>
      if character = '/' then [] :: pieces rest
      else
        match pieces rest with
        | [] => [[character]]
        | piece :: others => (character :: piece) :: others

/-- Whether a piece names nothing: it is empty or a single dot. -/
def isNeutral (piece : List Char) : Bool := piece = [] || piece = ['.']

/-- The last component, unless it leads back to the parent or there is none. -/
def lastComponent? (path : List Char) : Option (List Char) :=
  match ((pieces path).filter (!isNeutral ·)).getLast? with
  | some piece => if piece = ['.', '.'] then none else some piece
  | none => none

/-- The name without its directories; the whole path if it has no such name. -/
def baseName (path : String) : String :=
  match lastComponent? path.toList with
  | some name => String.ofList name
  | none => path

end Symbolication.Path
