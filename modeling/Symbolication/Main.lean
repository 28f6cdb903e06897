import Symbolication.CommandLine
import Symbolication.LinkageName.Schemes

/-!
The program: reads the named binaries and prints what the command line computes.
-/

open Symbolication

instance : LinkageNames := LinkageName.schemes

/-- The contents of the files that can be read, by path. -/
def readFiles : List String → IO (List (String × Bytes))
  | [] => pure []
  | path :: rest => do
      let contents ←
        try
          pure (some (← IO.FS.readBinFile path))
        catch _ => pure none
      let others ← readFiles rest
      pure (match contents with
        | some bytes => (path, bytes.data.toList) :: others
        | none => others)

def main (arguments : List String) : IO UInt32 := do
  let paths := (CommandLine.parse? arguments).elim [] (·.binaries)
  let files ← readFiles paths
  let outcome := CommandLine.run (fun path => files.lookup path) arguments
  IO.print outcome.output
  IO.eprint outcome.errors
  pure outcome.code
