import Symbolication.DebugImage
import Symbolication.ObjectFile

/-!
Several binaries searched in order: the first one that has a location for an address answers. A
binary that cannot be loaded is left out, and one that fails to decode is passed over.
-/

namespace Symbolication

/-- Why a binary cannot be loaded. -/
inductive LoadError where
  | unreadable
  | object (fault : ObjectFault)
  | missingSection (source : DebugSection)
  | decode (error : DecodeError)
deriving DecidableEq, Repr

/-- The message about a file. A file that cannot be read has none of its own. -/
def LoadError.message? (file : String) : LoadError → Option String
  | unreadable => none
  | object fault => some (file ++ ": " ++ fault.message)
  | missingSection source => some ("required DWARF section " ++ source.name ++ " not found")
  | decode error => some error.message

/-- Debugging information with the units decoded from it so far. -/
structure Binary where
  path : String
  image : DebugImage
  cache : UnitCache
deriving DecidableEq, Repr

namespace Binary

def ofImage (path : String) (image : DebugImage) : Binary := { path, image, cache := .empty }

/-- Loads the bytes of a file, or reports that there are none. -/
def load (path : String) (file? : Option Bytes) : Except LoadError Binary := do
  let some file := file? | .error .unreadable
  let object ← (ObjectFile.decode file).mapError .object
  let sections ← object.debugSections.mapError .missingSection
  let image ← (DebugImage.ofSections sections).mapError .decode
  .ok (ofImage path image)

variable [LinkageNames]

/-- The binary's answer, and the binary with what it decoded for it. -/
def resolve (binary : Binary) (address : UInt64) :
    Except DecodeError (Option Location) × Binary :=
  let (answer, cache) := (binary.image.resolve address).run.run binary.cache
  (answer, { binary with cache })

end Binary

structure Symbolizer where
  binaries : List Binary
deriving DecidableEq, Repr

namespace Symbolizer

def empty : Symbolizer := { binaries := [] }

def size (symbolizer : Symbolizer) : Nat := symbolizer.binaries.length

def isEmpty (symbolizer : Symbolizer) : Bool := symbolizer.binaries.isEmpty

def paths (symbolizer : Symbolizer) : List String := symbolizer.binaries.map (·.path)

def add (symbolizer : Symbolizer) (binary : Binary) : Symbolizer :=
  { binaries := symbolizer.binaries ++ [binary] }

/-- Loads every path that can be loaded. -/
def ofPaths (read? : String → Option Bytes) (paths : List String) : Symbolizer where
  binaries := paths.filterMap fun path => (Binary.load path (read? path)).toOption

variable [LinkageNames]

/-- The first location among binaries, and the binaries afterwards. Those behind the one that
answers are not asked. -/
def resolveFirst (address : UInt64) : List Binary → Option Location × List Binary
  | [] => (none, [])
  | binary :: rest =>
      match binary.resolve address with
      | (.ok (some location), asked) => (some location, asked :: rest)
      | (_, asked) =>
          let (answer, others) := resolveFirst address rest
          (answer, asked :: others)

/-- The location of an address, and the symbolizer with what was decoded for it. -/
def resolve (symbolizer : Symbolizer) (address : UInt64) : Option Location × Symbolizer :=
  let (answer, binaries) := resolveFirst address symbolizer.binaries
  (answer, { binaries })

end Symbolizer

end Symbolication
