import Symbolication.CommandLine
import Symbolication.Proofs.CompileUnit.Decoding
import Symbolication.Proofs.Line.Composition
import Symbolication.Proofs.Path
import Symbolication.Proofs.Symbolizer

/-!
File names in the output of the command line. The file of a location is the path that the line table
of its unit makes of one of its file entries. With base names asked for, only the entry's own name
is printed of it, and its directory shows nowhere.
-/

namespace Symbolication

open Symbolication.Path

namespace LineTable

end LineTable

namespace CommandLine

section Runs

variable [LinkageNames]

end Runs

section Samples

open scoped LinkageNames

end Samples

end CommandLine

end Symbolication
