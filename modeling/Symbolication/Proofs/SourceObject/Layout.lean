import Symbolication.Proofs.Abbreviation
import Symbolication.Proofs.AddressIndex
import Symbolication.Proofs.CompileUnit.Header
import Symbolication.Proofs.Entry.Forest
import Symbolication.Proofs.SourceObject.Basic

/-!
Objects laid out in sections. Units, line programs, names and range sets stand one after the other,
each in its section; a unit refers to its line program and its names by where they begin.
-/

namespace Symbolication

/-- Where the parts of a unit begin in their sections. -/
structure UnitPlace where
  info : Nat
  lines : Nat
  names : Nat
deriving DecidableEq, Repr

structure PlacedUnit where
  unit : SourceUnit
  place : UnitPlace
deriving DecidableEq, Repr

def unitLayout : Abbreviation where
  code := 1
  tag := ⟨0x11⟩
  hasChildren := true
  attributes := [{ name := .lineProgram, form := Form.sectionOffset.code },
    { name := .lowAddress, form := Form.address.code }]

def functionLayout : Abbreviation where
  code := 2
  tag := .subprogram
  hasChildren := false
  attributes := [{ name := .name, form := Form.stringOffset.code },
    { name := .lowAddress, form := Form.address.code },
    { name := .highAddress, form := Form.data8.code }]

/-- The table of both layouts, as it is read. -/
def layoutTable : AbbreviationTable where
  declarations := [functionLayout, unitLayout]

namespace SourceFunction

def encodeName (function : SourceFunction) : Bytes := Utf8.encode function.name ++ [0]

/-- What the entry of a function says when its name begins at an offset. -/
def values (function : SourceFunction) (nameOffset : Nat) : List FormValue :=
  [.stringOffset (UInt32.ofNat nameOffset) function.name, .address function.code.start,
    .data8 function.code.length]

def forest : Nat → List SourceFunction → EntryForest
  | _, [] => .empty
  | nameOffset, function :: functions =>
      .leaf functionLayout (function.values nameOffset)
        (forest (nameOffset + function.encodeName.length) functions)

end SourceFunction

namespace PlacedUnit

variable (strings : Bytes) (placed : PlacedUnit)

def context : AttributeContext where
  version := placed.unit.version
  addressWidth := placed.unit.addressWidth
  strings := strings

def values : List FormValue :=
  [.sectionOffset (UInt32.ofNat placed.place.lines), .address placed.unit.baseAddress]

def forest : EntryForest :=
  .scope unitLayout placed.values
    (SourceFunction.forest placed.place.names placed.unit.functions) .empty

def encodeEntries : Bytes := placed.forest.encode (placed.context strings)

def header : UnitHeader where
  offset := placed.place.info
  unitLength := UnitHeader.size - UnitHeader.lengthSize + (placed.encodeEntries strings).length
  version := placed.unit.version
  abbreviationOffset := 0
  addressWidth := placed.unit.addressWidth

def encodeUnit : Bytes := (placed.header strings).encode ++ placed.encodeEntries strings

def encodeNames : Bytes := placed.unit.functions.flatMap SourceFunction.encodeName

/-- A header with the usual numbers. Its lengths are those that writing gives it. -/
def lineHeader : LineHeader where
  offset := placed.place.lines
  unitLength := 0
  version := placed.unit.version
  headerLength := 0
  minimumInstructionLength := 1
  maximumOperations := 1
  defaultIsStatement := true
  lineBase := -5
  lineRange := 14
  opcodeBase := 13
  operandCounts := [0, 1, 1, 1, 1, 0, 0, 0, 1, 0, 0, 1]
  directories := placed.unit.directories
  files := placed.unit.files

def rows : List WrittenRow := placed.unit.sequences.flatMap SourceSequence.written

def encodeProgram : Bytes :=
  WrittenRow.encodeProgram placed.lineHeader placed.unit.addressWidth placed.rows

def encodeLines : Bytes := placed.lineHeader.encode [] placed.encodeProgram

/-- The claimed addresses, with as much padding as they need and a tuple of zeros behind them. -/
def rangeSet : WrittenRangeSet where
  unitOffset := placed.place.info
  addressWidth := placed.unit.addressWidth
  segmentWidth := none
  ranges := placed.unit.coverage.map fun extent =>
    { segment := 0, address := extent.start, length := extent.length }
  padding := List.replicate
    (RangeSet.padding (RangeSet.tupleSize placed.unit.addressWidth none)) 0
  trailing? := some []

def next : UnitPlace where
  info := placed.place.info + (placed.encodeUnit strings).length
  lines := placed.place.lines + placed.encodeLines.length
  names := placed.place.names + placed.encodeNames.length

/-- Whether the offsets and the lengths of the unit's parts have room where they are written. -/
structure Measurable : Prop where
  info : placed.place.info < 2 ^ 32
  lines : placed.place.lines < 2 ^ 32
  unitLength : (placed.header strings).unitLength < 0xfffffff0
  programLength : (placed.lineHeader.encodeHead [] ++ placed.encodeProgram).length < 0xfffffff0
  rangesLength : placed.rangeSet.encodeContents.length < 0xfffffff0

instance : Decidable (placed.Measurable strings) :=
  decidable_of_iff (placed.place.info < 2 ^ 32 ∧ placed.place.lines < 2 ^ 32 ∧
      (placed.header strings).unitLength < 0xfffffff0 ∧
      (placed.lineHeader.encodeHead [] ++ placed.encodeProgram).length < 0xfffffff0 ∧
      placed.rangeSet.encodeContents.length < 0xfffffff0)
    ⟨fun ⟨info, lines, unit, program, ranges⟩ => ⟨info, lines, unit, program, ranges⟩,
      fun fits => ⟨fits.info, fits.lines, fits.unitLength, fits.programLength, fits.rangesLength⟩⟩

end PlacedUnit

/-- Units one after the other, the first one at a given place. -/
def placeUnits (strings : Bytes) : UnitPlace → List SourceUnit → List PlacedUnit
  | _, [] => []
  | place, unit :: units =>
      { unit, place } :: placeUnits strings (PlacedUnit.next strings { unit, place }) units

theorem place_of_split {strings : Bytes} {start : UnitPlace} {units : List SourceUnit}
    {front back : List PlacedUnit} {placed : PlacedUnit}
    (split : placeUnits strings start units = front ++ placed :: back) :
    placed.place =
      { info := start.info + (front.flatMap (PlacedUnit.encodeUnit strings)).length
        lines := start.lines + (front.flatMap PlacedUnit.encodeLines).length
        names := start.names + (front.flatMap PlacedUnit.encodeNames).length } := by
  induction units generalizing start front with
  | nil => simp [placeUnits] at split
  | cons unit units induction =>
      rw [placeUnits] at split
      cases front with
      | nil =>
          rw [List.nil_append, List.cons.injEq] at split
          rw [← split.1]
          rfl
      | cons first front =>
          rw [List.cons_append, List.cons.injEq] at split
          rw [induction split.2, ← split.1]
          simp only [PlacedUnit.next, List.flatMap_cons, List.length_append, Nat.add_assoc]

theorem placeUnits_map_unit (strings : Bytes) (start : UnitPlace) (units : List SourceUnit) :
    (placeUnits strings start units).map PlacedUnit.unit = units := by
  induction units generalizing start with
  | nil => rfl
  | cons unit units induction => rw [placeUnits, List.map_cons, induction]

namespace SourceObject

variable (object : SourceObject)

def strings : Bytes :=
  object.units.flatMap fun unit => unit.functions.flatMap SourceFunction.encodeName

def placed : List PlacedUnit :=
  placeUnits object.strings { info := 0, lines := 0, names := 0 } object.units

def sections : DebugSections where
  info := object.placed.flatMap (PlacedUnit.encodeUnit object.strings)
  abbreviations := AbbreviationTable.encode [unitLayout, functionLayout]
  addressRanges := (object.placed.map PlacedUnit.rangeSet).flatMap WrittenRangeSet.encode
  lines := object.placed.flatMap PlacedUnit.encodeLines
  strings := object.strings
  rangeLists := []

/-- Whether every unit can be written, no length is a reserved one, and all names are in reach. -/
structure WellFormed : Prop where
  units : ∀ unit ∈ object.units, unit.WellFormed
  measures : ∀ placed ∈ object.placed, placed.Measurable object.strings
  strings : object.strings.length < 2 ^ 32

theorem placed_map_unit : object.placed.map PlacedUnit.unit = object.units :=
  placeUnits_map_unit _ _ _

theorem strings_eq_flatMap : object.strings = object.placed.flatMap PlacedUnit.encodeNames := by
  have units := object.placed_map_unit
  unfold strings
  rw [← units, List.flatMap_map]
  rfl

variable {object}

theorem drop_flatMap {front back : List PlacedUnit} {placed : PlacedUnit}
    (write : PlacedUnit → Bytes) :
    ((front ++ placed :: back).flatMap write).drop (front.flatMap write).length =
      write placed ++ back.flatMap write := by
  rw [List.flatMap_append, List.flatMap_cons, List.drop_left]

section Split

variable {front back : List PlacedUnit} {placed : PlacedUnit}
  (split : object.placed = front ++ placed :: back)

include split

theorem place_eq :
    placed.place =
      { info := (front.flatMap (PlacedUnit.encodeUnit object.strings)).length
        lines := (front.flatMap PlacedUnit.encodeLines).length
        names := (front.flatMap PlacedUnit.encodeNames).length } := by
  rw [place_of_split split]
  simp only [Nat.zero_add]

theorem unit_mem : placed.unit ∈ object.units := by
  rw [← object.placed_map_unit, split]
  simp

theorem info_drop : object.sections.info.drop placed.place.info =
    placed.encodeUnit object.strings ++ back.flatMap (PlacedUnit.encodeUnit object.strings) := by
  have place := congrArg UnitPlace.info (place_eq split)
  unfold sections
  dsimp only
  rw [place, split, drop_flatMap]

theorem lines_drop : object.sections.lines.drop placed.place.lines =
    placed.encodeLines ++ back.flatMap PlacedUnit.encodeLines := by
  have place := congrArg UnitPlace.lines (place_eq split)
  unfold sections
  dsimp only
  rw [place, split, drop_flatMap]

theorem strings_drop : object.strings.drop placed.place.names =
    placed.encodeNames ++ back.flatMap PlacedUnit.encodeNames := by
  have place := congrArg UnitPlace.names (place_eq split)
  rw [place, object.strings_eq_flatMap, split, drop_flatMap]

end Split

end SourceObject

end Symbolication
