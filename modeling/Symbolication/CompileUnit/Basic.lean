import Symbolication.CompileUnit.Header
import Symbolication.DebugSection
import Symbolication.Entry.Basic
import Symbolication.Line.Table

/-!
Decoded units: abbreviations, entries in their scopes, and the line table that the first entry
points to. An entry can be found from three offsets: counted from the first entry, from the unit's
header, or from the beginning of the section.
-/

namespace Symbolication

structure CompileUnit extends EntryTable where
  header : UnitHeader
  /-- The bytes of the entries. -/
  data : Bytes
  abbreviations : AbbreviationTable
  lineTable : Option LineTable
deriving DecidableEq, Repr

namespace CompileUnit

/-- The offset of the line program that the first entry refers to, and where the entry stands. -/
def lineOffset? (header : UnitHeader) (entries : List Entry) : Option (UInt64 × Nat) := do
  let first ← entries.head?
  let value ← first.value? .lineProgram
  let offset ← value.number?
  some (offset, header.firstEntry + first.offset)

/-- The line table that the first entry refers to. -/
def lineTable? (sections : DebugSections) (header : UnitHeader) (entries : List Entry) :
    Except DecodeError (Option LineTable) :=
  match lineOffset? header entries with
  | none => .ok none
  | some (offset, place) => do
      let offset ← DebugSection.info.count place offset
      some <$> LineTable.decode sections.lines offset header.addressWidth.toUInt8

theorem lineTable?_eq (sections : DebugSections) (header : UnitHeader) (entries : List Entry) :
    lineTable? sections header entries =
      match lineOffset? header entries with
      | none => .ok none
      | some (offset, _) =>
          some <$> LineTable.decode sections.lines offset.toNat header.addressWidth.toUInt8 := by
  unfold lineTable?
  simp only [DebugSection.count_eq]
  rfl

/-- Decodes the unit of a header. Its entries end where the unit ends. -/
def ofHeader (sections : DebugSections) (header : UnitHeader) : Except DecodeError CompileUnit := do
  let abbreviations ←
    AbbreviationTable.decode sections.abbreviations header.abbreviationOffset
  let context : AttributeContext :=
    { version := header.version, addressWidth := header.addressWidth, strings := sections.strings }
  let owned := sections.info.take header.stop
  let table ← (EntryTable.decoder abbreviations context).runAt .info owned header.firstEntry
  let lineTable ← lineTable? sections header table.entries
  let data := owned.drop header.firstEntry
  .ok { toEntryTable := table, header, data, abbreviations, lineTable }

def decode (sections : DebugSections) (offset : Nat) : Except DecodeError CompileUnit := do
  let header ← UnitHeader.decode sections.info offset
  ofHeader sections header

def root? (unit : CompileUnit) : Option Entry := unit.entries.head?.filter (!·.isNull)

/-- The address that range lists are relative to. -/
def baseAddress (unit : CompileUnit) : UInt64 :=
  ((unit.root?.bind (·.value? .lowAddress)).bind AttributeValue.address?).getD 0

def indexAtUnitOffset? (unit : CompileUnit) (offset : Nat) : Option Nat :=
  if UnitHeader.size ≤ offset then unit.indexAt? (offset - UnitHeader.size) else none

/-- Index of the entry at an offset of the section, if the unit contains the offset. -/
def indexAtSectionOffset? (unit : CompileUnit) (offset : Nat) : Option Nat :=
  if unit.header.contains offset then unit.indexAtUnitOffset? (offset - unit.header.offset)
  else none

def sectionOffset (unit : CompileUnit) (entry : Entry) : Nat :=
  unit.header.firstEntry + entry.offset

/-- The entries around the one at `index`, the innermost first. An enclosing entry stands earlier in
the row. -/
def ancestors (unit : CompileUnit) (index : Nat) : List Entry :=
  match (unit.entries[index]?).bind (·.parent) with
  | none => []
  | some parent =>
      if parent < index then
        match unit.entries[parent]? with
        | none => []
        | some entry => entry :: unit.ancestors parent
      else []
termination_by index

/-- A name behind the names of the scopes around the entry at `index`, the outermost first. -/
def qualify (unit : CompileUnit) (index : Nat) (name : String) : String :=
  let scopes := ((unit.ancestors index).filter (·.tag.isScope)).filterMap (·.name?)
  "::".intercalate (scopes.reverse ++ [name])

end CompileUnit

end Symbolication
