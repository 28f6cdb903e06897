/-!
The length of a readable path. A path is written text by text; where the next text would make it too
long, it ends with a note instead.
-/

namespace Symbolication.LinkageName

/-- The bytes that a readable path may have. -/
def maximumLength : Nat := 1000000

/-- What stands in place of the rest of a path that is too long. -/
def lengthNote : String := "\x7bsize limit reached\x7d"

/-- Texts one behind the other, within a number of bytes. -/
def joinWithin : Nat → List String → String
  | _, [] => ""
  | budget, text :: rest =>
      if text.utf8ByteSize ≤ budget then text ++ joinWithin (budget - text.utf8ByteSize) rest
      else lengthNote

end Symbolication.LinkageName
