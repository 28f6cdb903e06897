import Symbolication.Proofs.Checked.Line.Header
import Symbolication.Proofs.Line.Sequence

/-!
Line programs run while they are read. Every division is by a number that the header was checked
for, every opcode is taken from a base that it was compared with, and an opcode without a meaning
finds the count of its operands in the header.
-/

namespace Symbolication

namespace LineInstruction

def skipOperandsReading : Nat → Reading Unit
  | 0 => pure ()
  | count + 1 => do
      let _ ← Reading.unsigned
      skipOperandsReading count

def standardReading (header : LineHeader) (opcode : UInt8) : Reading LineInstruction :=
  match opcode.toNat with
  | 1 => pure .copy
  | 2 => .advanceAddress <$> Reading.unsigned
  | 3 => .advanceLine <$> Reading.signed
  | 4 => .setFile <$> Reading.unsigned
  | 5 => .setColumn <$> Reading.unsigned
  | 6 => pure .negateStatement
  | 7 => pure .setBasicBlock
  | 8 => pure .addConstant
  | 9 => .fixedAdvance <$> Reading.uint16
  | 10 => pure .setPrologueEnd
  | 11 => pure .setEpilogueBegin
  | 12 => .setInstructionSet <$> Reading.unsigned
  | number => do
      let index ← (Checked.subtract number 1 : Checked Nat)
      let count ← (Checked.item header.operandCounts index : Checked UInt8)
      skipOperandsReading count.toNat
      pure .skip

def extendedReading (addressSize : UInt8) : Reading LineInstruction := do
  let opcode ← Reading.byte
  match opcode.toNat with
  | 1 => pure .endSequence
  | 2 => .setAddress <$> Reading.address addressSize
  | 3 => do
      let name ← Reading.text
      .defineFile <$> FileEntry.reading name
  | 4 => .setDiscriminator <$> Reading.unsigned
  | _ => pure .skip

def extendedWithLengthReading (addressSize : UInt8) : Reading LineInstruction := do
  let length ← Reading.length
  if length = 0 then pure .skip
  else do
    let window ← Reading.window length
    Reading.within window (extendedReading addressSize)

def reading (header : LineHeader) (addressSize opcode : UInt8) : Reading LineInstruction :=
  if header.opcodeBase ≤ opcode then do
    let adjusted ← (Checked.subtract opcode header.opcodeBase : Checked UInt8)
    pure (.special adjusted)
  else if opcode = 0 then extendedWithLengthReading addressSize
  else standardReading header opcode

variable {floor : Nat} {header : LineHeader}

theorem skipOperandsReading_follows (count : Nat) :
    Follows floor Eq (skipOperandsReading count) (skipOperands count) := by
  induction count with
  | zero => exact .pure rfl
  | succ count induction => exact Reading.unsigned_performs.follows.bind_eq fun _ => induction

/-- The counts reach up to the first special opcode. -/
theorem exists_operandCount (sound : header.Sound) {opcode : UInt8} (nonzero : opcode ≠ 0)
    (below : opcode < header.opcodeBase) :
    ∃ count, header.operandCounts[opcode.toNat - 1]? = some count := by
  have positive := one_le_toNat_of_ne_zero nonzero
  have within : opcode.toNat < header.opcodeBase.toNat := UInt8.lt_iff_toNat_lt.mp below
  have listed := sound.operandCounts
  exact ⟨_, List.getElem?_eq_getElem (by omega)⟩

theorem standardReading_follows (sound : header.Sound) {opcode : UInt8} (nonzero : opcode ≠ 0)
    (below : opcode < header.opcodeBase) :
    Follows floor Eq (standardReading header opcode) (standard header opcode) := by
  obtain ⟨count, listed⟩ := exists_operandCount sound nonzero below
  have positive := one_le_toNat_of_ne_zero nonzero
  unfold standardReading standard
  generalize opcode.toNat = number at listed positive
  rcases number with _ | _ | _ | _ | _ | _ | _ | _ | _ | _ | _ | _ | _ | number
  · exact absurd positive (by decide)
  · exact .pure rfl
  · exact Reading.unsigned_performs.follows.map_eq _
  · exact Reading.signed_performs.follows.map_eq _
  · exact Reading.unsigned_performs.follows.map_eq _
  · exact Reading.unsigned_performs.follows.map_eq _
  · exact .pure rfl
  · exact .pure rfl
  · exact .pure rfl
  · exact Reading.uint16_performs.follows.map_eq _
  · exact .pure rfl
  · exact .pure rfl
  · exact Reading.unsigned_performs.follows.map_eq _
  · apply Follows.checked (Checked.subtract_eq_ok positive)
    apply Follows.checked (Checked.item_eq_ok listed)
    have operands : count.toNat = (header.operandCounts[number + 13 - 1]?).elim 0 UInt8.toNat := by
      rw [listed]
      rfl
    rw [operands]
    exact (skipOperandsReading_follows _).bind_eq fun _ => .pure rfl

theorem extendedReading_follows (addressSize : UInt8) :
    Follows floor Eq (extendedReading addressSize) (extended addressSize) := by
  apply Reading.byte_performs.follows.bind_eq
  intro opcode
  generalize opcode.toNat = number
  rcases number with _ | _ | _ | _ | _ | number
  · exact .pure rfl
  · exact .pure rfl
  · exact (Reading.address_performs _).follows.map_eq _
  · exact Reading.text_performs.follows.bind_eq fun name =>
      (FileEntry.reading_follows name).map_eq _
  · exact Reading.unsigned_performs.follows.map_eq _
  · exact .pure rfl

theorem extendedWithLengthReading_follows (addressSize : UInt8) :
    Follows floor Eq (extendedWithLengthReading addressSize) (extendedWithLength addressSize) := by
  apply Reading.length_performs.follows.bind_eq
  intro length
  apply Follows.ite Iff.rfl
  · intro _
    exact .pure rfl
  · intro _
    apply (Follows.window _).bind
    intro window' window stands
    exact .within stands (extendedReading_follows addressSize)

theorem reading_follows (sound : header.Sound) (addressSize opcode : UInt8) :
    Follows floor Eq (reading header addressSize opcode) (decoder header addressSize opcode) := by
  apply Follows.ite Iff.rfl
  · intro special
    exact .checked (Checked.subtract_eq_ok special) (.pure rfl)
  · intro standard
    apply Follows.ite Iff.rfl
    · intro _
      exact extendedWithLengthReading_follows addressSize
    · intro nonzero
      exact standardReading_follows sound nonzero (UInt8.not_le.mp standard)

end LineInstruction

namespace LineRegisters

def advanceChecked (header : LineHeader) (operations : UInt64) (registers : LineRegisters) :
    Checked LineRegisters :=
  let length := header.minimumInstructionLength.toUInt64
  let maximum := header.maximumOperations.toUInt64
  if maximum = 1 then
    pure { registers with address := registers.address + length * operations }
  else do
    let total := registers.operationIndex + operations
    let words ← Checked.divide total maximum
    let index ← Checked.remainder total maximum
    pure { registers with address := registers.address + length * words, operationIndex := index }

def specialOperationsChecked (header : LineHeader) (adjusted : UInt8) : Checked UInt64 := do
  let operations ← Checked.divide adjusted header.lineRange
  pure operations.toUInt64

def specialLinesChecked (header : LineHeader) (adjusted : UInt8) : Checked Int64 := do
  let lines ← Checked.remainder adjusted header.lineRange
  pure (header.lineBase.toInt64 + lines.toUInt64.toInt64)

variable {header : LineHeader}

theorem advanceChecked_eq (sound : header.Sound) (operations : UInt64)
    (registers : LineRegisters) :
    registers.advanceChecked header operations = .ok (registers.advance header operations) := by
  have nonzero : header.maximumOperations.toUInt64 ≠ 0 := fun zero =>
    sound.maximumOperations (UInt8.toUInt64_inj.mp zero)
  unfold advanceChecked advance
  dsimp only
  split
  · rfl
  · rw [Checked.bind_of_ok (Checked.divide_eq_ok nonzero),
      Checked.bind_of_ok (Checked.remainder_eq_ok nonzero)]
    rfl

theorem specialOperationsChecked_eq (sound : header.Sound) (adjusted : UInt8) :
    specialOperationsChecked header adjusted = .ok (specialOperations header adjusted) := by
  unfold specialOperationsChecked
  rw [Checked.divide_eq_ok sound.lineRange]
  rfl

theorem specialLinesChecked_eq (sound : header.Sound) (adjusted : UInt8) :
    specialLinesChecked header adjusted = .ok (specialLines header adjusted) := by
  unfold specialLinesChecked
  rw [Checked.remainder_eq_ok sound.lineRange]
  rfl

end LineRegisters

namespace LineState

def advanceChecked (header : LineHeader) (operations : UInt64) (state : LineState) :
    Checked LineState := do
  let registers ← state.registers.advanceChecked header operations
  pure { state with registers }

/-- Runs one instruction. The ones that do not move by operations have nothing to go wrong. -/
def executeChecked (header : LineHeader) (state : LineState) :
    LineInstruction → Checked LineState
  | .special adjusted => do
      let operations ← LineRegisters.specialOperationsChecked header adjusted
      let moved ← state.advanceChecked header operations
      let lines ← LineRegisters.specialLinesChecked header adjusted
      pure ((moved.update (.advanceLine lines)).emit.update .afterRow)
  | .advanceAddress operations => state.advanceChecked header operations
  | .addConstant => do
      let adjusted ← Checked.subtract 255 header.opcodeBase
      let operations ← LineRegisters.specialOperationsChecked header adjusted
      state.advanceChecked header operations
  | instruction => pure (state.execute header instruction)

/-- Reads and runs opcodes up to the end of the program. -/
def programReading (header : LineHeader) (addressSize : UInt8) : Reading LineState :=
  .roundsWhileLeft .byte (fun state opcode => do
    let instruction ← LineInstruction.reading header addressSize opcode
    let state ← (executeChecked header state instruction : Checked LineState)
    pure (.again state)) (initial header)

variable {floor : Nat} {header : LineHeader}

theorem advanceChecked_eq (sound : header.Sound) (operations : UInt64) (state : LineState) :
    state.advanceChecked header operations = .ok (state.update (.advance header operations)) := by
  unfold advanceChecked
  rw [LineRegisters.advanceChecked_eq sound]
  rfl

theorem opcodeBase_le (header : LineHeader) : header.opcodeBase ≤ 255 :=
  UInt8.le_iff_toNat_le.mpr (Nat.le_of_lt_succ header.opcodeBase.toNat_lt)

theorem executeChecked_eq (sound : header.Sound) (state : LineState)
    (instruction : LineInstruction) :
    executeChecked header state instruction = .ok (state.execute header instruction) := by
  cases instruction with
  | special adjusted =>
      unfold executeChecked
      dsimp only
      rw [Checked.bind_of_ok (LineRegisters.specialOperationsChecked_eq sound adjusted),
        Checked.bind_of_ok (advanceChecked_eq sound _ state),
        Checked.bind_of_ok (LineRegisters.specialLinesChecked_eq sound adjusted)]
      rfl
  | advanceAddress operations => exact advanceChecked_eq sound operations state
  | addConstant =>
      unfold executeChecked
      dsimp only
      rw [Checked.bind_of_ok (Checked.subtract_eq_ok (opcodeBase_le header)),
        Checked.bind_of_ok (LineRegisters.specialOperationsChecked_eq sound _)]
      exact advanceChecked_eq sound _ state
  | _ => rfl

/-- A header that was not checked. -/
example (header : LineHeader) (state : LineState) :
    executeChecked { header with lineRange := 0 } state (.special 5) = .error .division := rfl

/-- Running while reading comes to the state that the instructions read come to. -/
theorem programReading_follows (sound : header.Sound) (addressSize : UInt8) :
    Follows floor (fun state instructions => state = (initial header).run header instructions)
      (programReading header addressSize) (LineInstruction.program header addressSize) := by
  -- The decoder puts each instruction in front of those found before, so they ran in reverse.
  apply Follows.items_state (Decoder.itemIfLeft_consumes Decoder.byte_consumes)
  intro found
  have round : Follows floor
      (fun round' instruction? => Decoder.Round.Related
        (fun state (found : List LineInstruction) =>
          state = (initial header).run header found.reverse) round'
          (Decoder.Round.ofItem found instruction?))
      (Reading.roundIfLeft .byte (fun state opcode => do
        let instruction ← LineInstruction.reading header addressSize opcode
        let state ← (executeChecked header state instruction : Checked LineState)
        pure (.again state)) ((initial header).run header found.reverse))
      (Decoder.itemIfLeft .byte fun opcode =>
        some <$> LineInstruction.decoder header addressSize opcode) := by
    apply Follows.ifLeft trivial
    apply Reading.byte_performs.follows.bind_eq
    intro opcode
    rw [← bind_pure_comp]
    apply (LineInstruction.reading_follows sound addressSize opcode).bind_eq
    intro instruction
    apply Follows.checked (executeChecked_eq sound _ instruction)
    apply Follows.pure
    change _ = (initial header).run header (instruction :: found).reverse
    rw [List.reverse_cons, run_append]
    rfl
  exact round.map_right fun _ _ same => same

end LineState

namespace LineTable

def resolvePathChecked (directories : List String) (file : FileEntry) (number : Nat) :
    ExceptT LineProgramFault Checked String := do
  let path? ← (LineHeader.filePathChecked directories file : Checked (Option String))
  match path? with
  | none => throw (.missingDirectory number)
  | some path => pure path

def resolvePathsChecked (directories : List String) (files : List FileEntry) :
    ExceptT LineProgramFault Checked (List String) :=
  (files.zipIdx 1).mapM fun (file, number) => resolvePathChecked directories file number

/-- The table of a program that has run, for which every row needs a path. -/
def ofStateChecked (header : LineHeader) (state : LineState) :
    ExceptT LineProgramFault Checked LineTable := do
  let files := state.files.toList
  let paths ← resolvePathsChecked header.directories files
  let rows ← liftExcept (resolveRows paths.length state.rows.toList)
  if file_lt : ∀ row ∈ rows, row.file < paths.length then
    pure { header := { header with files }, paths, rows, file_lt }
  else
    (throw Trap.index : Checked LineTable)

def decodeChecked (lines : Bytes) (offset : Nat) (addressSize : UInt8) :
    ExceptT DecodeError Checked LineTable := do
  let (header, program) ← LineHeader.reading.runAt .lines lines offset
  let state ← (LineState.programReading header addressSize).value program
  (ofStateChecked header state).adapt fun fault =>
    { source := .lines, offset := header.offset, fault := .invalidLineProgram fault }

/-- The row that covers the address, with the path that its index has. -/
def locateChecked (table : LineTable) (address : UInt64) :
    Checked (Option (LineRow × String)) :=
  match findRow? address table.rows with
  | none => pure none
  | some row => do
      let path ← Checked.item table.paths row.file
      pure (some (row, path))

theorem resolvePathChecked_settles (directories : List String) (file : FileEntry)
    (number : Nat) :
    Settles Eq (resolvePathChecked directories file number)
      (resolvePath directories file number) := by
  apply Settles.checked (LineHeader.filePathChecked_eq directories file)
  unfold resolvePath
  cases LineHeader.filePath? directories file with
  | none => exact .throw _
  | some path => exact .pure rfl

theorem resolvePathsChecked_settles (directories : List String) (files : List FileEntry) :
    Settles Eq (resolvePathsChecked directories files) (resolvePaths directories files) :=
  .mapM (fun _ => resolvePathChecked_settles _ _ _) _

theorem ofStateChecked_settles (header : LineHeader) (state : LineState) :
    Settles Eq (ofStateChecked header state) (ofState header state) := by
  have resolves := resolvePathsChecked_settles header.directories state.files.toList
  unfold ofStateChecked ofState
  dsimp only
  split
  · rename_i fault outcome
    rw [outcome] at resolves
    exact resolves.bind_error
  · rename_i paths outcome
    rw [outcome] at resolves
    apply resolves.bind_ok
    rintro _ rfl
    split
    · rename_i fault unresolved
      exact (Settles.ofExcept unresolved).bind_error
    · rename_i rows resolved
      apply (Settles.ofExcept resolved).bind_ok
      rintro _ rfl
      rw [dif_pos (resolveRows_file_lt resolved)]
      exact .pure rfl

theorem decodeChecked_settles (lines : Bytes) (offset : Nat) (addressSize : UInt8) :
    Settles Eq (decodeChecked lines offset addressSize) (decode lines offset addressSize) := by
  apply (Follows.runAt LineHeader.reading_follows .lines lines offset).bind
  rintro ⟨header', program'⟩ ⟨header, program⟩ _ ⟨⟨rfl, sound⟩, stands⟩
  have runs := LineState.programReading_follows sound addressSize program' program stands
    (Nat.zero_le _)
  have states : Settles
      (fun state (found : List LineInstruction × Cursor) =>
        state = (LineState.initial header').run header' found.1)
      ((LineState.programReading header' addressSize).value program')
      ((LineInstruction.program header' addressSize).run program) :=
    runs.map_left fun _ _ found => found.1
  apply states.bind
  rintro _ ⟨instructions, final⟩ _ rfl
  have tables := (ofStateChecked_settles header'
    ((LineState.initial header').run header' instructions)).adapt fun fault =>
      ({ source := .lines, offset := header'.offset, fault := .invalidLineProgram fault } :
        DecodeError)
  dsimp only at tables ⊢
  cases outcome : ofState header' ((LineState.initial header').run header' instructions) with
  | error fault =>
      rw [outcome] at tables
      exact tables
  | ok table =>
      rw [outcome] at tables
      exact tables

theorem locateChecked_eq (table : LineTable) (address : UInt64) :
    table.locateChecked address = .ok (table.locate? address) := by
  unfold locateChecked
  cases search : findRow? address table.rows with
  | none => rw [locate?_eq_none search]; rfl
  | some row =>
      have named : table.paths[row.file]? = some _ :=
        List.getElem?_eq_getElem (table.file_lt row (mem_of_findRow? search))
      dsimp only
      rw [locate?_eq_some search named, Checked.bind_of_ok (Checked.item_eq_ok named)]
      rfl

end LineTable

end Symbolication
