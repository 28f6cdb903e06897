import Symbolication.Proofs.Abbreviation
import Symbolication.Proofs.DecodeError.Location
import Symbolication.Proofs.Line.Framing
import Symbolication.Proofs.Line.Placement

/-!
Tables that are found by their offset. What a line program, a table of abbreviations or a range list
means is decided by its own bytes: other bytes before and behind it change nothing, and a fault in
it is the same one at its new place.
-/

namespace Symbolication

open Relocation (Carries)

variable {relocation : Relocation}

/-- An error in the section whose bytes were moved. -/
theorem Relocation.error_into {source : DebugSection} {before behind : Bytes} {error : DecodeError}
    (inSource : error.source = source) :
    (into source before behind).error error =
      { error with offset := error.offset + before.length } :=
  error_of_source inSource

namespace LineTable

theorem source_of_decode {lines : Bytes} {offset : Nat} {addressSize : UInt8} {error : DecodeError}
    (fails : decode lines offset addressSize = .error error) : error.source = .lines := by
  let sections : DebugSections := {
    info := [], abbreviations := [], addressRanges := [], lines, strings := [], rangeLists := [] }
  have found : FailsWith (DecodeError.FoundIn sections .lines) (decode lines offset addressSize) :=
    decode_fails offset addressSize
  exact (found error fails).1

theorem offset_of_decode {lines : Bytes} {offset : Nat} {addressSize : UInt8} {table : LineTable}
    (decodes : decode lines offset addressSize = .ok table) : table.header.offset = offset := by
  obtain ⟨⟨header, opcodes⟩, reads, resolves⟩ := bind_eq_ok.mp decodes
  have resolves : ofProgram header opcodes addressSize = .ok table := resolves
  rw [ofProgram_eq] at resolves
  obtain ⟨final, _, resolves⟩ := bind_eq_ok.mp resolves
  have header_eq := (ofState_parts (ofFinal_eq_ok_iff.mp resolves)).2.2
  calc table.header.offset = header.offset := by rw [header_eq]
    _ = offset := LineHeader.offset_of_runAt reads

end LineTable

namespace Abbreviation

theorem decoder_carries (code : UInt64) :
    relocation.Carries Eq (decoder code) (decoder code) := by
  have attributes : relocation.Carries Eq attributeDeclarations attributeDeclarations :=
    .itemsUntil (Carries.unsigned.bind_eq fun _ => Carries.unsigned.bind_eq fun _ => .pure rfl)
  exact Carries.unsigned.bind_eq fun _ => Carries.byte.bind_eq fun _ =>
    attributes.bind_eq fun _ => .pure rfl

end Abbreviation

namespace AbbreviationTable

theorem declare_carries (table : AbbreviationTable) :
    relocation.Carries Eq (Decoder.located .unsigned >>= table.declare)
      (Decoder.located .unsigned >>= table.declare) := by
  apply (Carries.located .unsigned).bind
  rintro ⟨start, code⟩ ⟨_, _⟩ ⟨place, same⟩
  cases place
  cases same
  by_cases ends : code = 0
  · simp only [declare, ends, ↓reduceIte]
    exact .pure rfl
  · simp only [declare, ends, ↓reduceIte]
    apply (Abbreviation.decoder_carries code).bind_eq
    intro declaration
    split
    · exact .failAt _ _
    · exact .pure rfl

/-- From a cursor on, declarations are read until a zero code ends them. -/
inductive ComesToZero : AbbreviationTable → Cursor → Prop
  | zero {table : AbbreviationTable} {cursor next : Cursor} :
      Decoder.unsigned.run cursor = .ok (0, next) → ComesToZero table cursor
  | declared {table further : AbbreviationTable} {cursor next : Cursor} :
      (Decoder.located .unsigned >>= table.declare).run cursor = .ok (.again further, next) →
        ComesToZero further next → ComesToZero table cursor

/-- Whether the table at the beginning of the bytes is ended by a zero code, and not by their
end. -/
def StopsAtZero (abbreviations : Bytes) : Prop :=
  ComesToZero empty (.startingAt .abbreviations 0 abbreviations)

theorem run_declare_zero (table : AbbreviationTable) {cursor next : Cursor}
    (zero : Decoder.unsigned.run cursor = .ok (0, next)) :
    (Decoder.located .unsigned >>= table.declare).run cursor = .ok (.finished, next) := by
  refine Decoder.run_bind_eq_ok.mpr ⟨(cursor.offset, 0), next, ?_, rfl⟩
  exact Decoder.run_bind_eq_ok.mpr ⟨cursor.offset, cursor, rfl,
    Decoder.run_bind_eq_ok.mpr ⟨0, next, zero, rfl⟩⟩

/-- Behind the zero code nothing is read, so other bytes may follow. -/
theorem ComesToZero.run_eq {table : AbbreviationTable} {cursor other : Cursor}
    (comes : ComesToZero table cursor) (moves : relocation.Moves cursor other) :
    ∃ final next next', (declareAll table).run cursor = .ok (final, next) ∧
      (declareAll table).run other = .ok (final, next') := by
  have starts {table : AbbreviationTable} {cursor next : Cursor}
      {round : Decoder.Round AbbreviationTable}
      (step : (Decoder.located .unsigned >>= table.declare).run cursor = .ok (round, next)) :
      cursor.rest ≠ [] :=
    Decoder.rest_ne_nil_of_run (Decoder.located_consumes Decoder.unsigned_consumes) step
  unfold declareAll
  induction comes generalizing other with
  | @zero table cursor next zero =>
      have step := run_declare_zero table zero
      obtain ⟨_, next', step', _, rfl⟩ := (declare_carries table).success moves step
      refine ⟨table, next, next', ?_, ?_⟩
      · rw [Decoder.run_roundsWhileLeft (starts step), step]
      · rw [Decoder.run_roundsWhileLeft (starts step'), step']
  | @declared table further cursor next step _ induction =>
      obtain ⟨_, next', step', movesNext, rfl⟩ := (declare_carries table).success moves step
      obtain ⟨final, last, last', runs, runs'⟩ := induction movesNext
      refine ⟨final, last, last', ?_, ?_⟩
      · rw [Decoder.run_roundsWhileLeft (starts step), step]
        exact runs
      · rw [Decoder.run_roundsWhileLeft (starts step'), step']
        exact runs'

variable {abbreviations : Bytes}

theorem decode_placed {table : AbbreviationTable} (stops : StopsAtZero abbreviations)
    (decodes : decode abbreviations 0 = .ok table) (before behind : Bytes) :
    decode (before ++ abbreviations ++ behind) before.length = .ok table := by
  obtain ⟨final, next, next', runs, runs'⟩ := stops.run_eq
    (Carries.moves_into before abbreviations behind)
  have alone := decode_behind [] abbreviations
  rw [List.nil_append, List.length_nil, decodes, runs] at alone
  cases alone
  rw [List.append_assoc, decode_behind, runs']
  rfl

theorem decode_fails_placed {error : DecodeError} (fails : decode abbreviations 0 = .error error)
    (before : Bytes) :
    decode (before ++ abbreviations) before.length =
      .error { error with offset := error.offset + before.length } := by
  have carries : (Relocation.into .abbreviations before []).Carries Eq decoder decoder :=
    .roundsWhileLeft rfl declare_carries empty
  have inSource : error.source = .abbreviations :=
    Span.source_of_runAt (fun _ source => decoder_guards source) fails
  rw [← Relocation.error_into inSource]
  exact carries.runAt_failure fails

end AbbreviationTable

namespace RangeList

theorem pairs_carries (width : Width) : relocation.Carries Eq (pairs width) (pairs width) :=
  .itemsUntil ((Carries.word width).bind_eq fun _ => (Carries.word width).bind_eq fun _ =>
    .pure rfl)

variable {rangeLists : Bytes} {addressSize : UInt8} {base : UInt64}

theorem decode_placed {found : List AddressRange}
    (decodes : decode rangeLists 0 addressSize base = .ok found) (before behind : Bytes) :
    decode (before ++ rangeLists ++ behind) before.length addressSize base = .ok found := by
  unfold decode at decodes ⊢
  split at decodes
  · cases decodes
  · rename_i width _
    obtain ⟨read, reads, means⟩ := bind_eq_ok.mp decodes
    have carries : (Relocation.into .rangeLists before behind).Carries Eq (pairs width)
        (pairs width) := pairs_carries width
    obtain ⟨_, reads', rfl⟩ := carries.runAt_success reads
    exact bind_eq_ok.mpr ⟨read, reads', means⟩

theorem decode_fails_placed {error : DecodeError}
    (fails : decode rangeLists 0 addressSize base = .error error) (before : Bytes) :
    decode (before ++ rangeLists) before.length addressSize base =
      .error { error with offset := error.offset + before.length } := by
  unfold decode at fails ⊢
  split at fails
  · cases fails
    rw [Nat.zero_add]
  · rename_i width _
    have carries : (Relocation.into .rangeLists before []).Carries Eq (pairs width)
        (pairs width) := pairs_carries width
    rcases bind_eq_error.mp fails with failsReading | ⟨_, _, impossible⟩
    · have inSource : error.source = .rangeLists :=
        Span.source_of_runAt (fun _ _ => pairs_guards width) failsReading
      refine bind_eq_error.mpr (.inl ?_)
      rw [← Relocation.error_into inSource]
      exact carries.runAt_failure failsReading
    · cases impossible

end RangeList

namespace DebugSection

/-- Tables that are found by their offset do not depend on what stands around them. A line program
that is read at the beginning of a section is read alike between other bytes, with the place in its
header alone different; so is a range list, and a table of abbreviations that a zero code ends. If
one of them is at fault, then also behind other bytes, for the same reason and as far behind the old
place. -/
theorem tables_stand_anywhere (before bytes behind : Bytes) :
    (∀ addressSize table, LineTable.decode bytes 0 addressSize = .ok table →
      ∃ placed,
        LineTable.decode (before ++ bytes ++ behind) before.length addressSize = .ok placed ∧
          placed.rows = table.rows ∧ placed.paths = table.paths ∧
          placed.header = { table.header with offset := before.length }) ∧
    (∀ table, AbbreviationTable.StopsAtZero bytes →
      AbbreviationTable.decode bytes 0 = .ok table →
      AbbreviationTable.decode (before ++ bytes ++ behind) before.length = .ok table) ∧
    (∀ addressSize base ranges, RangeList.decode bytes 0 addressSize base = .ok ranges →
      RangeList.decode (before ++ bytes ++ behind) before.length addressSize base = .ok ranges) ∧
    (∀ addressSize error, LineTable.decode bytes 0 addressSize = .error error →
      LineTable.decode (before ++ bytes) before.length addressSize =
        .error { error with offset := error.offset + before.length }) ∧
    (∀ error, AbbreviationTable.decode bytes 0 = .error error →
      AbbreviationTable.decode (before ++ bytes) before.length =
        .error { error with offset := error.offset + before.length }) ∧
    ∀ addressSize base error, RangeList.decode bytes 0 addressSize base = .error error →
      RangeList.decode (before ++ bytes) before.length addressSize base =
        .error { error with offset := error.offset + before.length } := by
  refine ⟨?_, ?_, ?_, ?_, ?_, ?_⟩
  · intro addressSize table decodes
    have alone := LineTable.offset_of_decode decodes
    refine ⟨_, LineTable.decode_placed decodes before behind, rfl, rfl, ?_⟩
    unfold LineTable.movedBy LineHeader.movedBy
    rw [alone, Nat.zero_add]
  · intro table stops decodes
    exact AbbreviationTable.decode_placed stops decodes before behind
  · intro addressSize base ranges decodes
    exact RangeList.decode_placed decodes before behind
  · intro addressSize error fails
    rw [LineTable.decode_fails_placed fails,
      Relocation.error_into (LineTable.source_of_decode fails)]
  · intro error fails
    exact AbbreviationTable.decode_fails_placed fails before
  · intro addressSize base error fails
    exact RangeList.decode_fails_placed fails before

/-- The declaration of a code whose entries have a name, and the zero that ends the table. -/
def namingTable : Bytes := [1, 17, 0, 3, 8, 0, 0, 0]

def naming : AbbreviationTable :=
  .insert .empty { code := 1, tag := ⟨17⟩, hasChildren := false, attributes := [⟨⟨3⟩, ⟨8⟩⟩] }

theorem stopsAtZero_naming : AbbreviationTable.StopsAtZero namingTable := by
  let start : Cursor := .startingAt .abbreviations 0 namingTable
  have declares : (Decoder.located .unsigned >>= AbbreviationTable.empty.declare).run start =
      .ok (.again naming, start.after [1, 17, 0, 3, 8, 0, 0] [0]) := by decide +kernel
  have ends : Decoder.unsigned.run (start.after [1, 17, 0, 3, 8, 0, 0] [0]) =
      .ok (0, start.after namingTable []) := by decide +kernel
  exact .declared declares (.zero ends)

/-- One table of each kind between two other bytes, and one that ends too early behind one. -/
theorem tables_stand_anywhere_between :
    (∃ table,
      LineTable.decode ([9] ++ LineTable.declaringProgram.between [] [] ++ [7]) 1 8 = .ok table ∧
        table.rows = LineTable.declaringTable.rows ∧ table.paths = ["a", "b"]) ∧
    AbbreviationTable.decode ([9] ++ namingTable ++ [7]) 1 = .ok naming ∧
    RangeList.decode ([9] ++ [1, 0, 0, 0, 5, 0, 0, 0, 0, 0, 0, 0, 0, 0, 0, 0] ++ [7]) 1 4 16 =
      .ok [⟨17, 21⟩] ∧
    LineTable.decode ([9] ++ [1, 0, 0, 0, 5]) 1 8 = .error ⟨.lines, 5, .unexpectedEnd⟩ ∧
    AbbreviationTable.decode ([9] ++ [1, 17, 0, 3, 136]) 1 =
      .error ⟨.abbreviations, 5, .unexpectedEnd⟩ ∧
    RangeList.decode ([9] ++ [1, 0, 0, 0, 5]) 1 4 16 =
      .error ⟨.rangeLists, 5, .unexpectedEnd⟩ := by
  have decodesLines : LineTable.decode (LineTable.declaringProgram.between [] []) 0 8 =
      .ok { LineTable.declaringTable with
        header := { LineTable.declaringTable.header with offset := 0 } } := by decide +kernel
  obtain ⟨placed, decodes, rows, paths, _⟩ :=
    (tables_stand_anywhere [9] (LineTable.declaringProgram.between [] []) [7]).1 8 _ decodesLines
  refine ⟨⟨placed, decodes, rows, paths⟩, ?_, ?_, ?_, ?_, ?_⟩
  · exact (tables_stand_anywhere [9] namingTable [7]).2.1 naming stopsAtZero_naming
      (by decide +kernel)
  · exact (tables_stand_anywhere [9] _ [7]).2.2.1 4 16 _ (by decide +kernel)
  · exact (tables_stand_anywhere [9] _ [7]).2.2.2.1 8 ⟨.lines, 4, .unexpectedEnd⟩
      (by decide +kernel)
  · exact (tables_stand_anywhere [9] _ [7]).2.2.2.2.1 ⟨.abbreviations, 4, .unexpectedEnd⟩
      (by decide +kernel)
  · exact (tables_stand_anywhere [9] _ [7]).2.2.2.2.2 4 16 ⟨.rangeLists, 4, .unexpectedEnd⟩
      (by decide +kernel)

end DebugSection

end Symbolication
