import Symbolication.Proofs.SourceObject.Layout

/-!
Units of a laid out object, as they are decoded: the entries that were written, and a table of the
rows that the unit has.
-/

namespace Symbolication

theorem CompileUnit.decode_eq_ok {sections : DebugSections} {start : Nat} {header : UnitHeader}
    {abbreviations : AbbreviationTable} {decoded : EntryTable} {lineTable : Option LineTable}
    (headerDecodes : UnitHeader.decode sections.info start = .ok header)
    (abbreviationsDecode : AbbreviationTable.decode sections.abbreviations
      header.abbreviationOffset = .ok abbreviations)
    (entriesDecode : (EntryTable.decoder abbreviations
        { version := header.version, addressWidth := header.addressWidth
          strings := sections.strings }).runAt .info (sections.info.take header.stop)
        header.firstEntry = .ok decoded)
    (linesDecode : lineTable? sections header decoded.entries = .ok lineTable) :
    CompileUnit.decode sections start =
      .ok { toEntryTable := decoded, header, abbreviations, lineTable
            data := (sections.info.take header.stop).drop header.firstEntry } := by
  unfold CompileUnit.decode ofHeader
  rw [headerDecodes]
  dsimp only [Bind.bind, Except.bind]
  rw [abbreviationsDecode]
  dsimp only
  rw [entriesDecode]
  dsimp only
  rw [linesDecode]

theorem layoutTable_distinct : layoutTable.Distinct := ⟨by decide, by decide⟩

theorem layouts_declarable : AbbreviationTable.Declarable [unitLayout, functionLayout] :=
  ⟨by decide, by decide, by decide⟩

theorem SourceFunction.forest_wellFormed {context : AttributeContext}
    {functions : List SourceFunction} {offset : Nat} {behind : Bytes}
    (short : context.strings.length < 2 ^ 32)
    (stands : context.strings.drop offset =
      functions.flatMap SourceFunction.encodeName ++ behind)
    (names : ∀ function ∈ functions, '\x00' ∉ function.name.toList)
    (starts : ∀ function ∈ functions,
      function.code.start.toNat < 256 ^ context.addressWidth.bytes) :
    (SourceFunction.forest offset functions).WellFormed layoutTable context := by
  induction functions generalizing offset with
  | nil => trivial
  | cons function functions induction =>
      rw [List.forall_mem_cons] at names starts
      rw [List.flatMap_cons, List.append_assoc] at stands
      have inside : offset ≤ context.strings.length :=
        Bytes.offset_le_of_drop stands (by simp [encodeName])
      have number : (UInt32.ofNat offset).toNat = offset :=
        UInt32.toNat_ofNat_of_lt' (Nat.lt_of_le_of_lt inside short)
      have nameFits :
          (FormValue.stringOffset (UInt32.ofNat offset) function.name).Fits context := by
        refine ⟨names.1, ?_⟩
        rw [number, stands]
        exact List.prefix_append _ _
      have others : context.strings.drop (offset + function.encodeName.length) =
          functions.flatMap SourceFunction.encodeName ++ behind := by
        rw [← List.drop_drop, stands, List.drop_left]
      refine ⟨by decide, rfl, ?_, induction others names.2 starts.2⟩
      exact .cons ⟨.inl rfl, nameFits⟩ (.cons ⟨.inl rfl, starts.1⟩ (.cons ⟨.inl rfl, trivial⟩ .nil))

namespace PlacedUnit

def entries (strings : Bytes) (placed : PlacedUnit) : List Entry :=
  placed.forest.entries (placed.context strings) 0 0 none

theorem encodeUnit_ne_nil (strings : Bytes) (placed : PlacedUnit) :
    placed.encodeUnit strings ≠ [] := by
  simp [encodeUnit, UnitHeader.encode, Bytes.ofNumber]

theorem lineHeader_wellFormed {placed : PlacedUnit} (wellFormed : placed.unit.WellFormed) :
    placed.lineHeader.WellFormed where
  maximumOperations := by simp [lineHeader]
  singleOperation := fun _ => rfl
  lineRange := by simp [lineHeader]
  opcodeBase := by simp [lineHeader]
  operandCounts := rfl
  directories := wellFormed.directories
  files := wellFormed.files

theorem rows_fit {placed : PlacedUnit} (wellFormed : placed.unit.WellFormed) :
    ∀ row ∈ placed.rows, row.Fits placed.unit.addressWidth placed.unit.files.length := by
  unfold rows
  rw [List.forall_mem_flatMap]
  intro sequence member
  exact SourceSequence.written_fits (wellFormed.rows sequence member)
    (wellFormed.stops sequence member)

theorem totalSize_header (strings : Bytes) (placed : PlacedUnit) :
    (placed.header strings).totalSize =
      UnitHeader.size + (placed.encodeEntries strings).length := by
  unfold header UnitHeader.totalSize
  dsimp only [UnitHeader.size, UnitHeader.lengthSize]
  omega

theorem header_fits {strings : Bytes} {placed : PlacedUnit}
    (measurable : placed.Measurable strings) : (placed.header strings).Fits where
  unitLength := measurable.unitLength
  abbreviationOffset := Nat.two_pow_pos 32
  holdsHeader := by
    rw [totalSize_header]
    exact Nat.le_add_right _ _

/-- The first entry leads to the line program of its unit. -/
theorem lineOffset_entries {strings : Bytes} {placed : PlacedUnit}
    (measurable : placed.Measurable strings) :
    ∃ offset place, CompileUnit.lineOffset? (placed.header strings) (placed.entries strings) =
      some (offset, place) ∧ offset.toNat = placed.place.lines := by
  refine ⟨(UInt32.ofNat placed.place.lines).toUInt64, _, rfl, ?_⟩
  rw [UInt32.toNat_toUInt64]
  exact UInt32.toNat_ofNat_of_lt' measurable.lines

end PlacedUnit

namespace SourceObject

variable {object : SourceObject} {front back : List PlacedUnit} {placed : PlacedUnit}

theorem measurable (wellFormed : object.WellFormed)
    (split : object.placed = front ++ placed :: back) : placed.Measurable object.strings :=
  wellFormed.measures placed (by rw [split]; exact List.mem_append_right _ List.mem_cons_self)

theorem forest_wellFormed (wellFormed : object.WellFormed)
    (split : object.placed = front ++ placed :: back) :
    placed.forest.WellFormed layoutTable (placed.context object.strings) := by
  have unitFormed := wellFormed.units placed.unit (unit_mem split)
  refine ⟨by decide, rfl, ?_, ?_, trivial⟩
  · exact .cons ⟨.inl rfl, trivial⟩ (.cons ⟨.inl rfl, unitFormed.baseAddress⟩ .nil)
  · exact SourceFunction.forest_wellFormed wellFormed.strings (strings_drop split) unitFormed.names
      unitFormed.starts

theorem stop_le (split : object.placed = front ++ placed :: back) :
    placed.place.info + (UnitHeader.size + (placed.encodeEntries object.strings).length) ≤
      object.sections.info.length := by
  have stands := info_drop split
  have inside := Bytes.offset_le_of_drop stands (placed.encodeUnit_ne_nil object.strings)
  have lengths := congrArg List.length stands
  simp only [List.length_drop, List.length_append, PlacedUnit.encodeUnit,
    UnitHeader.length_encode] at lengths
  omega

theorem decode_header (wellFormed : object.WellFormed)
    (split : object.placed = front ++ placed :: back) :
    UnitHeader.decode object.sections.info placed.place.info =
      .ok (placed.header object.strings) := by
  have stands := info_drop split
  rw [PlacedUnit.encodeUnit, List.append_assoc] at stands
  apply UnitHeader.decode_eq_ok (PlacedUnit.header_fits (measurable wellFormed split)) stands
  rw [PlacedUnit.totalSize_header, List.length_append]
  omega

theorem decode_abbreviations : AbbreviationTable.decode object.sections.abbreviations 0 =
    .ok layoutTable :=
  (AbbreviationTable.decoder_reads layouts_declarable).runAt (Nat.zero_le _)
    (List.append_nil _).symm

theorem entries_drop (split : object.placed = front ++ placed :: back) :
    (object.sections.info.take (placed.header object.strings).stop).drop
        (placed.header object.strings).firstEntry =
      placed.encodeEntries object.strings := by
  have stands := info_drop split
  have total := PlacedUnit.totalSize_header object.strings placed
  have behindHeader : object.sections.info.drop (placed.header object.strings).firstEntry =
      placed.encodeEntries object.strings ++
        back.flatMap (PlacedUnit.encodeUnit object.strings) := by
    have header := UnitHeader.length_encode (placed.header object.strings)
    rw [PlacedUnit.encodeUnit, List.append_assoc] at stands
    unfold UnitHeader.firstEntry
    rw [← header, ← List.drop_drop]
    change (object.sections.info.drop placed.place.info).drop _ = _
    rw [stands, List.drop_left]
  have length : (placed.header object.strings).stop - (placed.header object.strings).firstEntry =
      (placed.encodeEntries object.strings).length := by
    unfold UnitHeader.stop UnitHeader.firstEntry
    omega
  rw [List.drop_take, behindHeader, length, List.take_left]

theorem decode_entries (wellFormed : object.WellFormed)
    (split : object.placed = front ++ placed :: back) :
    (EntryTable.decoder layoutTable (placed.context object.strings)).runAt .info
        (object.sections.info.take (placed.header object.strings).stop)
        (placed.header object.strings).firstEntry =
      .ok (.ofEntries (placed.entries object.strings)) := by
  have inside : (placed.header object.strings).firstEntry ≤
      (object.sections.info.take (placed.header object.strings).stop).length := by
    have total := PlacedUnit.totalSize_header object.strings placed
    have bound := stop_le split
    rw [List.length_take]
    unfold UnitHeader.stop UnitHeader.firstEntry
    change placed.place.info + _ ≤ min (placed.place.info + _) _
    omega
  have stands := entries_drop split
  rw [← List.append_nil (placed.encodeEntries object.strings)] at stands
  exact (placed.forest.decoder_reads layoutTable_distinct
    (forest_wellFormed wellFormed split)).runAt inside stands

theorem decode_lines (wellFormed : object.WellFormed)
    (split : object.placed = front ++ placed :: back) :
    ∃ table, LineTable.decode object.sections.lines placed.place.lines
        placed.unit.addressWidth.toUInt8 = .ok table ∧
      table.paths = placed.unit.files.map (FileEntry.path placed.unit.directories) ∧
        table.rows = placed.rows.map WrittenRow.lineRow := by
  have unitFormed := wellFormed.units placed.unit (unit_mem split)
  have stands := lines_drop split
  have standard : (6 : UInt8) < 13 := by decide
  obtain ⟨table, succeeds, _, paths, rows⟩ := LineTable.decode_written
    (PlacedUnit.lineHeader_wellFormed unitFormed) standard unitFormed.declared
    (PlacedUnit.rows_fit unitFormed) (measurable wellFormed split).programLength stands
  exact ⟨table, succeeds, paths, rows⟩

/-- A unit is decoded where it was placed. -/
theorem decode_placed (wellFormed : object.WellFormed)
    (split : object.placed = front ++ placed :: back) :
    ∃ unit table, CompileUnit.decode object.sections placed.place.info = .ok unit ∧
      unit.entries = placed.entries object.strings ∧ unit.lineTable = some table ∧
        table.paths = placed.unit.files.map (FileEntry.path placed.unit.directories) ∧
          table.rows = placed.rows.map WrittenRow.lineRow := by
  obtain ⟨offset, place, leads, number⟩ :=
    PlacedUnit.lineOffset_entries (measurable wellFormed split)
  obtain ⟨table, lines, paths, rows⟩ := decode_lines wellFormed split
  have linesDecode : CompileUnit.lineTable? object.sections (placed.header object.strings)
      (placed.entries object.strings) = .ok (some table) := by
    rw [CompileUnit.lineTable?_eq, leads]
    dsimp only
    rw [number]
    exact congrArg (some <$> ·) lines
  exact ⟨_, table, CompileUnit.decode_eq_ok (decode_header wellFormed split) decode_abbreviations
    (decode_entries wellFormed split) linesDecode, rfl, rfl, paths, rows⟩

end SourceObject

end Symbolication
