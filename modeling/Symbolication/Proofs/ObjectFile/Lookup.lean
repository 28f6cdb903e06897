import Symbolication.Proofs.Encoding.Utf8
import Symbolication.Proofs.ObjectFile.Opening
import Symbolication.Proofs.ObjectFile.Sections

/-!
How sections are found by name. The names stand in one of the sections, each up to a zero byte; the
section with the least index answers for a name, and its bytes are those of the file, if they are
there as they are.
-/

namespace Symbolication.ObjectFile

variable {object : ObjectFile} {name : String}

/-- The names of the headers, each with its index, when the first has the given one. -/
def named (object : ObjectFile) : Nat → List SectionHeader → List (String × Nat)
  | _, [] => []
  | index, header :: headers =>
      match object.nameOf? header with
      | none => object.named (index + 1) headers
      | some name =>
          if name = "" then object.named (index + 1) headers
          else (name, index) :: object.named (index + 1) headers

end Symbolication.ObjectFile
