import Symbolication.Bytes

/-!
The six sections of debugging information that a lookup reads.
-/

namespace Symbolication

inductive DebugSection where
  | info
  | abbreviations
  | addressRanges
  | lines
  | strings
  | rangeLists
deriving DecidableEq, Repr

namespace DebugSection

def name : DebugSection → String
  | info => ".debug_info"
  | abbreviations => ".debug_abbrev"
  | addressRanges => ".debug_aranges"
  | lines => ".debug_line"
  | strings => ".debug_str"
  | rangeLists => ".debug_ranges"

/-- The sections in the order in which a missing one is noticed. -/
def all : List DebugSection := [info, abbreviations, addressRanges, lines, strings, rangeLists]

end DebugSection

structure DebugSections where
  info : Bytes
  abbreviations : Bytes
  addressRanges : Bytes
  lines : Bytes
  strings : Bytes
  rangeLists : Bytes
deriving DecidableEq, Repr

namespace DebugSections

/-- Collects the sections. The error is the first section that the source does not have. -/
def collect (find? : DebugSection → Option Bytes) : Except DebugSection DebugSections := do
  let required (name : DebugSection) : Except DebugSection Bytes :=
    match find? name with
    | some bytes => .ok bytes
    | none => .error name
  let info ← required .info
  let abbreviations ← required .abbreviations
  let addressRanges ← required .addressRanges
  let lines ← required .lines
  let strings ← required .strings
  let rangeLists ← required .rangeLists
  .ok { info, abbreviations, addressRanges, lines, strings, rangeLists }

end DebugSections

end Symbolication
