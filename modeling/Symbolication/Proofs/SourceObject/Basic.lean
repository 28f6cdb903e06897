import Symbolication.DebugImage
import Symbolication.Proofs.Line.Sequence

/-!
Objects as a compiler knows them: units with their files, rows and functions, and the addresses that
each unit claims. Where an address comes from is said without any section.
-/

namespace Symbolication

/-- The addresses from `start` on, `length` of them. -/
structure CodeExtent where
  start : UInt64
  length : UInt64
deriving DecidableEq, Repr

namespace CodeExtent

def contains (extent : CodeExtent) (address : UInt64) : Bool :=
  extent.start.toNat ≤ address.toNat && address.toNat < extent.start.toNat + extent.length.toNat

end CodeExtent

structure SourceFunction where
  name : String
  code : CodeExtent
deriving DecidableEq, Repr

structure SourceUnit where
  version : Version
  addressWidth : Width
  baseAddress : UInt64
  directories : List String
  files : List FileEntry
  sequences : List SourceSequence
  functions : List SourceFunction
  coverage : List CodeExtent
deriving DecidableEq, Repr

namespace SourceUnit

def covers (unit : SourceUnit) (address : UInt64) : Bool :=
  unit.coverage.any (·.contains address)

/-- The row for the address in the first sequence that covers it. -/
def rowAt? (unit : SourceUnit) (address : UInt64) : Option SourceRow :=
  unit.sequences.findSome? (·.rowAt? address)

def path? (unit : SourceUnit) (row : SourceRow) : Option String :=
  (unit.files[row.file.toNat - 1]?).map (FileEntry.path unit.directories)

def functionAt? (unit : SourceUnit) (address : UInt64) : Option String :=
  (unit.functions.find? (·.code.contains address)).map (·.name)

def locate? (unit : SourceUnit) (address : UInt64) : Option Location := do
  let row ← unit.rowAt? address
  let file ← unit.path? row
  some { address, file, line := row.line, function := unit.functionAt? address }

/-- Whether the unit can be written at its address size, and everything it names exists. -/
structure WellFormed (unit : SourceUnit) : Prop where
  baseAddress : unit.baseAddress.toNat < 256 ^ unit.addressWidth.bytes
  directories : ∀ directory ∈ unit.directories, IsListedText directory
  files : ∀ file ∈ unit.files, IsListedText file.name
  declared : ∀ file ∈ unit.files, file.directory.toNat ≤ unit.directories.length
  ascending : ∀ sequence ∈ unit.sequences, sequence.Ascending
  rows : ∀ sequence ∈ unit.sequences, ∀ row ∈ sequence.rows,
    row.written.Fits unit.addressWidth unit.files.length
  stops : ∀ sequence ∈ unit.sequences, sequence.stop.toNat < 256 ^ unit.addressWidth.bytes
  names : ∀ function ∈ unit.functions, '\x00' ∉ function.name.toList
  starts : ∀ function ∈ unit.functions,
    function.code.start.toNat < 256 ^ unit.addressWidth.bytes
  ends : ∀ function ∈ unit.functions,
    function.code.start.toNat + function.code.length.toNat < 2 ^ 64
  coverage : ∀ extent ∈ unit.coverage, extent.start.toNat < 256 ^ unit.addressWidth.bytes ∧
    extent.length.toNat < 256 ^ unit.addressWidth.bytes
  claims : ∀ extent ∈ unit.coverage, ¬(extent.start = 0 ∧ extent.length = 0)

end SourceUnit

structure SourceObject where
  units : List SourceUnit
deriving DecidableEq, Repr

/-- Where the address comes from, as the first unit has it that claims the address. -/
def SourceObject.locate? (object : SourceObject) (address : UInt64) : Option Location :=
  (object.units.find? (·.covers address)).bind (·.locate? address)

end Symbolication
