import Symbolication.Line.Header
import Symbolication.Proofs.Checked.Repetition

/-!
Readings of line program headers. The header refuses every number that the machine could not divide
by or subtract, and lists the operands of each standard opcode.
-/

namespace Symbolication

def FileEntry.reading (name : String) : Reading FileEntry := do
  let directory ← Reading.unsigned
  let modified ← Reading.unsigned
  let size ← Reading.unsigned
  pure { name, directory, modified, size }

theorem FileEntry.reading_follows {floor : Nat} (name : String) :
    Follows floor Eq (FileEntry.reading name) (FileEntry.decoder name) :=
  Reading.unsigned_performs.follows.bind_eq fun _ =>
    Reading.unsigned_performs.follows.bind_eq fun _ =>
      Reading.unsigned_performs.follows.bind_eq fun _ => .pure rfl

theorem one_le_toNat_of_ne_zero {value : UInt8} (nonzero : value ≠ 0) : 1 ≤ value.toNat :=
  Nat.one_le_iff_ne_zero.mpr fun zero => nonzero (UInt8.toNat_inj.mp zero)

namespace LineHeader

/-- What the machine relies on. -/
structure Sound (header : LineHeader) : Prop where
  lineRange : header.lineRange ≠ 0
  opcodeBase : header.opcodeBase ≠ 0
  maximumOperations : header.maximumOperations ≠ 0
  operandCounts : header.operandCounts.length = header.opcodeBase.toNat - 1

def directoryNamesReading : Reading (List String) :=
  .itemsUntil .terminated fun name =>
    pure (if name = [] then none else some (Utf8.lossyText name))

def fileEntriesReading : Reading (List FileEntry) :=
  .itemsUntil .terminated fun name =>
    if name = [] then pure none else some <$> FileEntry.reading (Utf8.lossyText name)

def checkNonzeroReading (start : Nat) (lineRange opcodeBase maximumOperations : UInt8) :
    Reading Unit :=
  if lineRange = 0 then Reading.failAt start (.invalidLineProgram .zeroLineRange)
  else if opcodeBase = 0 then Reading.failAt start (.invalidLineProgram .zeroOpcodeBase)
  else if maximumOperations = 0 then
    Reading.failAt start (.invalidLineProgram .zeroMaximumOperations)
  else pure ()

def fieldsReading (start unitLength : Nat) (version : Version) (headerLength : Nat) :
    Reading LineHeader := do
  let minimumInstructionLength ← Reading.byte
  let maximumOperations ← if version = .four then Reading.byte else pure 1
  let defaultIsStatement ← Reading.byte
  let lineBase ← Reading.signedByte
  let lineRange ← Reading.byte
  let opcodeBase ← Reading.byte
  checkNonzeroReading start lineRange opcodeBase maximumOperations
  let count ← (Checked.subtract opcodeBase.toNat 1 : Checked Nat)
  let operandCounts ← Reading.take count
  let directories ← directoryNamesReading
  let files ← fileEntriesReading
  pure {
    offset := start
    unitLength
    version
    headerLength
    minimumInstructionLength
    maximumOperations
    defaultIsStatement := defaultIsStatement ≠ 0
    lineBase
    lineRange
    opcodeBase
    operandCounts
    directories
    files }

def contentsReading (start unitLength : Nat) : Reading (LineHeader × Reader) := do
  let version ← Reading.version start
  let headerLength ← Reading.uint32
  let fieldWindow ← Reading.window headerLength.toNat
  let program ← get
  let header ← Reading.within fieldWindow
    (fieldsReading start unitLength version headerLength.toNat)
  pure (header, program)

def reading : Reading (LineHeader × Reader) := do
  let (start, unitLength) ← Reading.located Reading.initialLength
  let window ← Reading.window unitLength
  Reading.within window (contentsReading start unitLength)

/-- The same sound header, and the same place for the opcodes. -/
def Alike (found' : LineHeader × Reader) (found : LineHeader × Cursor) : Prop :=
  (found'.1 = found.1 ∧ found.1.Sound) ∧ found'.2.Stands found.2

variable {floor : Nat}

theorem directoryNamesReading_follows :
    Follows floor Eq directoryNamesReading directoryNames :=
  .itemsUntil _ Reading.terminated_performs.follows fun _ => .pure rfl

theorem fileEntriesReading_follows : Follows floor Eq fileEntriesReading fileEntries := by
  apply Follows.itemsUntil _ Reading.terminated_performs.follows
  intro name
  exact .ite Iff.rfl (fun _ => .pure rfl) fun _ => (FileEntry.reading_follows _).map_eq _

theorem checkNonzeroReading_follows (start : Nat)
    (lineRange opcodeBase maximumOperations : UInt8) :
    Follows floor (fun _ _ => lineRange ≠ 0 ∧ opcodeBase ≠ 0 ∧ maximumOperations ≠ 0)
      (checkNonzeroReading start lineRange opcodeBase maximumOperations)
      (checkNonzero start lineRange opcodeBase maximumOperations) := by
  apply Follows.ite Iff.rfl
  · intro _
    exact .failAt _ _
  · intro lineRangeNonzero
    apply Follows.ite Iff.rfl
    · intro _
      exact .failAt _ _
    · intro opcodeBaseNonzero
      apply Follows.ite Iff.rfl
      · intro _
        exact .failAt _ _
      · intro maximumNonzero
        exact .pure ⟨lineRangeNonzero, opcodeBaseNonzero, maximumNonzero⟩

theorem fieldsReading_follows (start unitLength : Nat) (version : Version) (headerLength : Nat) :
    Follows floor (fun header' header => header' = header ∧ header.Sound)
      (fieldsReading start unitLength version headerLength)
      (fields start unitLength version headerLength) := by
  apply Reading.byte_performs.follows.bind_eq
  intro minimumInstructionLength
  apply Follows.bind_if Reading.byte_performs.follows
  intro maximumOperations
  apply Reading.byte_performs.follows.bind_eq
  intro defaultIsStatement
  apply Reading.signedByte_performs.follows.bind_eq
  intro lineBase
  apply Reading.byte_performs.follows.bind_eq
  intro lineRange
  apply Reading.byte_performs.follows.bind_eq
  intro opcodeBase
  apply (checkNonzeroReading_follows _ _ _ _).bind
  rintro _ _ ⟨lineRangeNonzero, opcodeBaseNonzero, maximumNonzero⟩
  apply Follows.checked (Checked.subtract_eq_ok (one_le_toNat_of_ne_zero opcodeBaseNonzero))
  apply (Follows.take_counts _).bind
  rintro _ operandCounts ⟨rfl, length⟩
  apply directoryNamesReading_follows.bind_eq
  intro directories
  apply fileEntriesReading_follows.bind_eq
  intro files
  exact .pure ⟨rfl, lineRangeNonzero, opcodeBaseNonzero, maximumNonzero, length⟩

theorem contentsReading_follows (start unitLength : Nat) :
    Follows floor Alike (contentsReading start unitLength) (contents start unitLength) := by
  apply (Follows.version start).bind_eq
  intro version
  apply Reading.uint32_performs.follows.bind_eq
  intro headerLength
  apply (Follows.window _).bind
  intro fieldWindow' fieldWindow stands
  apply Follows.cursor.bind
  intro program' program standsProgram
  apply (Follows.within stands (fieldsReading_follows _ _ _ _)).bind
  intro header' header same
  exact .pure ⟨same, standsProgram⟩

theorem reading_follows : Follows floor Alike reading decoder := by
  apply (Follows.located .initialLength).bind_eq
  rintro ⟨start, unitLength⟩
  apply (Follows.window _).bind
  intro window' window stands
  exact .within stands (contentsReading_follows start unitLength)

theorem sound_of_runAt {lines : Bytes} {offset : Nat} {header : LineHeader} {program : Cursor}
    (decoded : decoder.runAt .lines lines offset = .ok (header, program)) : header.Sound := by
  have settles := reading_follows.runAt .lines lines offset
  rw [decoded] at settles
  obtain ⟨_, _, ⟨_, sound⟩, _⟩ := settles
  exact sound

/-- How a file entry is found, where the directory is counted from one. -/
def filePathChecked (directories : List String) (file : FileEntry) : Checked (Option String) :=
  if Path.isAbsolute file.name || file.directory = 0 then pure (some file.name)
  else do
    let index ← Checked.subtract file.directory 1
    pure ((directories[index.toNat]?).map fun directory => Path.join directory file.name)

theorem filePathChecked_eq (directories : List String) (file : FileEntry) :
    filePathChecked directories file = .ok (filePath? directories file) := by
  unfold filePathChecked filePath?
  split
  · rfl
  · rename_i relative
    have counted : (1 : UInt64) ≤ file.directory := by
      have nonzero : file.directory ≠ 0 := fun zero => relative (by simp [zero])
      rw [UInt64.le_iff_toNat_le]
      exact Nat.one_le_iff_ne_zero.mpr fun zero => nonzero (UInt64.toNat_inj.mp zero)
    rw [Checked.bind_of_ok (Checked.subtract_eq_ok counted), UInt64.toNat_sub_of_le _ _ counted]
    rfl

end LineHeader

end Symbolication
