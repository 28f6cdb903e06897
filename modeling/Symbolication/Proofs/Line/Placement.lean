import Symbolication.Proofs.Decoder.Relocation
import Symbolication.Proofs.Line.Composition

/-!
Line programs at another place of their section. A program owns the bytes that its length counts, so
it is read alike between other bytes: the header tells its new place, and so do errors.
-/

namespace Symbolication

open Relocation (Carries)

variable {relocation : Relocation}

theorem FileEntry.decoder_carries (name : String) :
    relocation.Carries Eq (decoder name) (decoder name) :=
  Carries.unsigned.bind_eq fun _ => Carries.unsigned.bind_eq fun _ =>
    Carries.unsigned.bind_eq fun _ => .pure rfl

namespace LineHeader

def movedBy (distance : Nat) (header : LineHeader) : LineHeader :=
  { header with offset := header.offset + distance }

theorem directoryNames_carries : relocation.Carries Eq directoryNames directoryNames :=
  .itemsUntil (Carries.terminated.bind_eq fun _ => .pure rfl)

theorem fileEntries_carries : relocation.Carries Eq fileEntries fileEntries := by
  apply Carries.itemsUntil
  apply Carries.terminated.bind_eq
  intro name
  split
  · exact .pure rfl
  · exact (FileEntry.decoder_carries _).map_eq some

theorem checkNonzero_carries (start : Nat) (lineRange opcodeBase maximumOperations : UInt8) :
    relocation.Carries Eq (checkNonzero start lineRange opcodeBase maximumOperations)
      (checkNonzero (start + relocation.distance) lineRange opcodeBase maximumOperations) := by
  unfold checkNonzero
  split
  · exact .failAt _ _
  split
  · exact .failAt _ _
  split
  · exact .failAt _ _
  · exact .pure rfl

theorem fields_carries (start unitLength : Nat) (version : Version) (headerLength : Nat) :
    relocation.Carries (fun header header' => header' = header.movedBy relocation.distance)
      (fields start unitLength version headerLength)
      (fields (start + relocation.distance) unitLength version headerLength) := by
  apply Carries.byte.bind_eq
  intro minimumInstructionLength
  have operations {α β : Type} {related : α → β → Prop} {first : UInt8 → Decoder α}
      {second : UInt8 → Decoder β}
      (carries : ∀ count, relocation.Carries related (first count) (second count)) :
      relocation.Carries related
        (if version = .four then Decoder.byte >>= first else pure 1 >>= first)
        (if version = .four then Decoder.byte >>= second else pure 1 >>= second) := by
    split
    · exact Carries.byte.bind_eq carries
    · exact carries 1
  apply operations
  intro maximumOperations
  apply Carries.byte.bind_eq
  intro defaultIsStatement
  apply Carries.signedByte.bind_eq
  intro lineBase
  apply Carries.byte.bind_eq
  intro lineRange
  apply Carries.byte.bind_eq
  intro opcodeBase
  apply (checkNonzero_carries start _ _ _).bind_eq
  intro _
  apply (Carries.take _).bind_eq
  intro operandCounts
  apply directoryNames_carries.bind_eq
  intro directories
  apply fileEntries_carries.bind_eq
  intro files
  exact .pure rfl

/-- The same header at the new place, with the window of the same opcodes. -/
def MovesWith (relocation : Relocation) (first second : LineHeader × Cursor) : Prop :=
  second.1 = first.1.movedBy relocation.distance ∧ relocation.Moves first.2 second.2

theorem contents_carries (start unitLength : Nat) :
    relocation.Carries (MovesWith relocation) (contents start unitLength)
      (contents (start + relocation.distance) unitLength) := by
  apply (Carries.version start).bind_eq
  intro version
  apply Carries.uint32.bind_eq
  intro headerLength
  apply (Carries.window _).bind
  intro fieldWindow fieldWindow' movesFields
  apply Carries.currentCursor.bind
  intro program program' movesProgram
  apply (Carries.within movesFields (fields_carries start unitLength version _)).bind
  intro header header' same
  exact .pure ⟨same, movesProgram⟩

theorem decoder_carries :
    relocation.Carries (MovesWith relocation.alone) decoder decoder := by
  apply (Carries.located .initialLength).bind
  rintro ⟨start, unitLength⟩ ⟨start', unitLength'⟩ ⟨place, same⟩
  cases place
  cases same
  apply (Carries.window unitLength).bind
  intro window window' moves
  exact Carries.within moves (contents_carries start unitLength)

end LineHeader

namespace LineInstruction

variable (header : LineHeader) (addressSize : UInt8)

theorem skipOperands_carries (count : Nat) :
    relocation.Carries Eq (skipOperands count) (skipOperands count) := by
  induction count with
  | zero => exact .pure rfl
  | succ count induction => exact Carries.unsigned.bind_eq fun _ => induction

theorem standard_carries (opcode : UInt8) :
    relocation.Carries Eq (standard header opcode) (standard header opcode) := by
  unfold standard
  split
  · exact .pure rfl
  · exact Carries.unsigned.map_eq _
  · exact Carries.signed.map_eq _
  · exact Carries.unsigned.map_eq _
  · exact Carries.unsigned.map_eq _
  · exact .pure rfl
  · exact .pure rfl
  · exact .pure rfl
  · exact Carries.uint16.map_eq _
  · exact .pure rfl
  · exact .pure rfl
  · exact Carries.unsigned.map_eq _
  · exact (skipOperands_carries _).bind_eq fun _ => .pure rfl

theorem extended_carries :
    relocation.Carries Eq (extended addressSize) (extended addressSize) := by
  apply Carries.byte.bind_eq
  intro opcode
  split
  · exact .pure rfl
  · exact (Carries.address addressSize).map_eq _
  · exact Carries.text.bind_eq fun name => (FileEntry.decoder_carries name).map_eq _
  · exact Carries.unsigned.map_eq _
  · exact .pure rfl

theorem extendedWithLength_carries :
    relocation.Carries Eq (extendedWithLength addressSize) (extendedWithLength addressSize) := by
  apply Carries.length.bind_eq
  intro length
  split
  · exact .pure rfl
  · apply (Carries.window _).bind
    intro window window' moves
    exact Carries.within moves (extended_carries addressSize)

theorem decoder_carries (opcode : UInt8) :
    relocation.Carries Eq (decoder header addressSize opcode)
      (decoder header addressSize opcode) := by
  unfold decoder
  split
  · exact .pure rfl
  · split
    · exact extendedWithLength_carries addressSize
    · exact standard_carries header opcode

theorem program_carries (nothing : relocation.behind = []) :
    relocation.Carries Eq (program header addressSize) (program header addressSize) :=
  .itemsToEnd nothing (Carries.byte.bind_eq (decoder_carries header addressSize))

end LineInstruction

namespace LineTable

def movedBy (distance : Nat) (table : LineTable) : LineTable :=
  { table with header := table.header.movedBy distance }

theorem ofState_movedBy (distance : Nat) (header : LineHeader) (final : LineState) :
    ofState (header.movedBy distance) final = movedBy distance <$> ofState header final := by
  unfold ofState LineHeader.movedBy
  dsimp only
  cases resolvePaths header.directories final.files.toList with
  | error fault => rfl
  | ok paths =>
      dsimp only
      split <;> rfl

/-- A program runs alike under its moved header, and has its table or its fault there. -/
theorem ofProgram_movedBy (inLines : relocation.source = .lines) (nothing : relocation.behind = [])
    (header : LineHeader) (addressSize : UInt8) {opcodes opcodes' : Cursor}
    (moves : relocation.Moves opcodes opcodes') :
    ofProgram (header.movedBy relocation.distance) opcodes' addressSize =
      (movedBy relocation.distance <$> ofProgram header opcodes addressSize).mapError
        relocation.error := by
  have carries := LineInstruction.program_carries header addressSize nothing
  rw [ofProgram_eq, ofProgram_eq]
  unfold LineState.interpret
  have same : LineInstruction.program (header.movedBy relocation.distance) addressSize =
      LineInstruction.program header addressSize := rfl
  rw [same]
  cases reads : (LineInstruction.program header addressSize).run opcodes with
  | error error =>
      rw [carries.failure nothing moves reads]
      rfl
  | ok result =>
      obtain ⟨instructions, next⟩ := result
      obtain ⟨_, next', reads', _, rfl⟩ := carries.success moves reads
      rw [reads']
      change ofFinal (header.movedBy relocation.distance)
        ((LineState.initial header).run header instructions) = _
      unfold ofFinal
      rw [ofState_movedBy]
      change _ = (movedBy relocation.distance <$> ofFinal header
        ((LineState.initial header).run header instructions)).mapError relocation.error
      unfold ofFinal
      cases ofState header ((LineState.initial header).run header instructions) with
      | ok table => rfl
      | error fault =>
          let error : DecodeError := {
            source := .lines, offset := header.offset, fault := .invalidLineProgram fault }
          have inSource : error.source = relocation.source := inLines.symm
          exact congrArg Except.error (Relocation.error_of_source inSource).symm

section Decode

variable {lines : Bytes} {addressSize : UInt8}

theorem decode_placed {table : LineTable} (decodes : decode lines 0 addressSize = .ok table)
    (before behind : Bytes) :
    decode (before ++ lines ++ behind) before.length addressSize =
      .ok (table.movedBy before.length) := by
  unfold decode at decodes ⊢
  cases reads : LineHeader.decoder.runAt .lines lines 0 with
  | error error =>
      rw [reads] at decodes
      cases decodes
  | ok result =>
      obtain ⟨header, opcodes⟩ := result
      have carries : (Relocation.into .lines before behind).Carries _ LineHeader.decoder
          LineHeader.decoder := LineHeader.decoder_carries
      obtain ⟨⟨_, opcodes'⟩, reads', rfl, moves⟩ := carries.runAt_success reads
      rw [reads] at decodes
      rw [reads']
      change ofProgram header opcodes addressSize = _ at decodes
      exact (ofProgram_movedBy rfl rfl header addressSize moves).trans (by rw [decodes]; rfl)

theorem decode_fails_placed {error : DecodeError}
    (fails : decode lines 0 addressSize = .error error) (before : Bytes) :
    decode (before ++ lines) before.length addressSize =
      .error ((Relocation.into .lines before []).error error) := by
  have carries : (Relocation.into .lines before []).Carries _ LineHeader.decoder
      LineHeader.decoder := LineHeader.decoder_carries
  unfold decode at fails ⊢
  cases reads : LineHeader.decoder.runAt .lines lines 0 with
  | error error' =>
      rw [reads] at fails
      cases fails
      rw [carries.runAt_failure reads]
      rfl
  | ok result =>
      obtain ⟨header, opcodes⟩ := result
      obtain ⟨⟨_, opcodes'⟩, reads', rfl, moves⟩ := carries.runAt_success reads
      rw [List.append_nil] at reads'
      rw [reads] at fails
      rw [reads']
      change ofProgram header opcodes addressSize = _ at fails
      exact (ofProgram_movedBy rfl rfl header addressSize moves).trans (by rw [fails]; rfl)

end Decode

end LineTable

end Symbolication
