import Symbolication.Line.Table
import Symbolication.Proofs.Line.Instruction

/-!
Line programs that are written for given rows. A program sets every register that a row needs and
then emits it, so running it emits exactly those rows, and the table holds them with their paths.
-/

namespace Symbolication

/-- A row as a program is asked to emit it. Its file is counted from one. -/
structure WrittenRow where
  address : UInt64
  file : UInt64
  line : UInt64
  column : UInt64
  isStatement : Bool
  endSequence : Bool
deriving DecidableEq, Repr

namespace WrittenRow

/-- The instructions that take the registers to the row and emit it. -/
def instructions (registers : LineRegisters) (row : WrittenRow) : List LineInstruction :=
  [.setAddress row.address, .setFile row.file, .setColumn row.column,
    .advanceLine (row.line - registers.line).toInt64] ++
    (if registers.isStatement = row.isStatement then [] else [.negateStatement]) ++
      [if row.endSequence then .endSequence else .copy]

def emitted (registers : LineRegisters) (row : WrittenRow) : LineRegisters :=
  { registers with
    address := row.address
    operationIndex := 0
    file := row.file
    line := row.line
    column := row.column
    isStatement := row.isStatement
    endSequence := row.endSequence }

/-- The registers behind the row. The end of a sequence sets them to the initial ones. -/
def registersAfter (initial registers : LineRegisters) (row : WrittenRow) : LineRegisters :=
  if row.endSequence then initial else (row.emitted registers).afterRow

def instructionsFrom (initial : LineRegisters) :
    LineRegisters → List WrittenRow → List LineInstruction
  | _, [] => []
  | registers, row :: rows =>
      row.instructions registers ++
        instructionsFrom initial (row.registersAfter initial registers) rows

def program (header : LineHeader) (rows : List WrittenRow) : List LineInstruction :=
  instructionsFrom (.initial header) (.initial header) rows

def encodeProgram (header : LineHeader) (width : Width) (rows : List WrittenRow) : Bytes :=
  (program header rows).flatMap (LineInstruction.encode header width)

/-- The row of a table, with its file counted from zero. -/
def lineRow (row : WrittenRow) : LineRow where
  address := row.address
  file := row.file.toNat - 1
  line := row.line
  column := row.column
  isStatement := row.isStatement
  endSequence := row.endSequence

def ofRegisters (registers : LineRegisters) : WrittenRow where
  address := registers.address
  file := registers.file
  line := registers.line
  column := registers.column
  isStatement := registers.isStatement
  endSequence := registers.endSequence

theorem ofRegisters_emitted (registers : LineRegisters) (row : WrittenRow) :
    ofRegisters (row.emitted registers) = row := rfl

end WrittenRow

namespace LineState

theorem run_append (header : LineHeader) (state : LineState)
    (first second : List LineInstruction) :
    state.run header (first ++ second) = (state.run header first).run header second :=
  List.foldl_append

theorem add_difference (line target : UInt64) :
    line + (target - line).toInt64.toUInt64 = target := by
  rw [UInt64.toUInt64_toInt64, UInt64.add_comm, UInt64.sub_add_cancel]

theorem run_settings (header : LineHeader) (state : LineState) (row : WrittenRow) :
    state.run header [.setAddress row.address, .setFile row.file, .setColumn row.column,
        .advanceLine (row.line - state.registers.line).toInt64] =
      { state with
        registers := { state.registers with
          address := row.address, operationIndex := 0, file := row.file, line := row.line
          column := row.column } } := by
  simp only [run, List.foldl_cons, List.foldl_nil, execute, update, LineRegisters.advanceLine,
    add_difference]

theorem run_negation (header : LineHeader) (state : LineState) (wanted : Bool) :
    state.run header (if state.registers.isStatement = wanted then [] else [.negateStatement]) =
      { state with registers := { state.registers with isStatement := wanted } } := by
  by_cases same : state.registers.isStatement = wanted
  · rw [if_pos same, ← same]
    rfl
  · rw [if_neg same, Bool.eq_not_of_ne (Ne.symm same)]
    rfl

/-- One row: the registers it needs are set, and they are emitted once. -/
theorem run_instructions (header : LineHeader) (state : LineState) (row : WrittenRow)
    (running : state.registers.endSequence = false) :
    state.run header (row.instructions state.registers) =
      { registers := row.registersAfter (.initial header) state.registers
        files := state.files
        rows := state.rows.push (row.emitted state.registers) } := by
  unfold WrittenRow.instructions
  rw [run_append, run_append, run_settings]
  have negated := run_negation header
    { state with
      registers := { state.registers with
        address := row.address, operationIndex := 0, file := row.file, line := row.line
        column := row.column } } row.isStatement
  dsimp only at negated
  rw [negated]
  cases ends : row.endSequence with
  | false =>
      simp only [WrittenRow.registersAfter, WrittenRow.emitted, ends, running,
        Bool.false_eq_true, if_false]
      rfl
  | true =>
      simp only [WrittenRow.registersAfter, WrittenRow.emitted, ends]
      rfl

theorem registersAfter_running (header : LineHeader) (registers : LineRegisters)
    (row : WrittenRow) : (row.registersAfter (.initial header) registers).endSequence = false := by
  unfold WrittenRow.registersAfter
  cases ends : row.endSequence with
  | false => exact ends
  | true => rfl

/-- Rows are emitted one after the other, and no file is declared on the way. -/
theorem run_instructionsFrom (header : LineHeader) (rows : List WrittenRow) (state : LineState)
    (running : state.registers.endSequence = false) :
    (state.run header (WrittenRow.instructionsFrom (.initial header) state.registers rows)).files =
        state.files ∧
      (state.run header (WrittenRow.instructionsFrom (.initial header) state.registers
          rows)).rows.toList.map WrittenRow.ofRegisters =
        state.rows.toList.map WrittenRow.ofRegisters ++ rows := by
  induction rows generalizing state with
  | nil =>
      rw [List.append_nil]
      exact ⟨rfl, rfl⟩
  | cons row rows induction =>
      rw [WrittenRow.instructionsFrom, run_append, run_instructions header state row running]
      have others := induction
        { registers := row.registersAfter (.initial header) state.registers
          files := state.files
          rows := state.rows.push (row.emitted state.registers) }
        -- The end of a sequence is not marked any more when the next row begins.
        (registersAfter_running header state.registers row)
      refine ⟨others.1, ?_⟩
      rw [others.2, Array.toList_push, List.map_append, List.append_assoc, List.map_singleton,
        WrittenRow.ofRegisters_emitted]
      rfl

theorem run_program (header : LineHeader) (rows : List WrittenRow) :
    ((initial header).run header (WrittenRow.program header rows)).files = header.files.toArray ∧
      ((initial header).run header (WrittenRow.program header rows)).rows.toList.map
          WrittenRow.ofRegisters = rows :=
  run_instructionsFrom header rows (initial header) rfl

end LineState

namespace WrittenRow

/-- Whether a row can be written at an address size and names one of so many files. -/
structure Fits (width : Width) (fileCount : Nat) (row : WrittenRow) : Prop where
  address : row.address.toNat < 256 ^ width.bytes
  file_pos : 0 < row.file.toNat
  file_le : row.file.toNat ≤ fileCount

instance (width : Width) (fileCount : Nat) (row : WrittenRow) :
    Decidable (row.Fits width fileCount) :=
  decidable_of_iff (row.address.toNat < 256 ^ width.bytes ∧ 0 < row.file.toNat ∧
      row.file.toNat ≤ fileCount)
    ⟨fun fits => ⟨fits.1, fits.2.1, fits.2.2⟩,
      fun fits => ⟨fits.address, fits.file_pos, fits.file_le⟩⟩

theorem instructions_writable {header : LineHeader} (standard : 6 < header.opcodeBase)
    {width : Width} {fileCount : Nat} {row : WrittenRow} (fits : row.Fits width fileCount)
    (registers : LineRegisters) :
    ∀ instruction ∈ row.instructions registers, instruction.Writable header width := by
  have below : ∀ opcode : UInt8, opcode ≤ 6 → opcode < header.opcodeBase :=
    fun _ small => UInt8.lt_of_le_of_lt small standard
  have based : header.opcodeBase ≠ 0 := by
    intro isZero
    rw [isZero] at standard
    exact absurd standard (by decide)
  unfold instructions
  rw [List.forall_mem_append, List.forall_mem_append]
  refine ⟨⟨?_, ?_⟩, ?_⟩
  · simp only [List.forall_mem_cons, List.not_mem_nil, false_implies, implies_true, and_true]
    exact ⟨⟨based, fits.address⟩, below 4 (by decide), below 5 (by decide), below 3 (by decide)⟩
  · split
    · simp
    · rw [List.forall_mem_singleton]
      exact standard
  · rw [List.forall_mem_singleton]
    cases row.endSequence with
    | false => exact below 1 (by decide)
    | true => exact based

theorem instructionsFrom_writable {header : LineHeader} (standard : 6 < header.opcodeBase)
    {width : Width} {fileCount : Nat} {rows : List WrittenRow}
    (fits : ∀ row ∈ rows, row.Fits width fileCount) (initial registers : LineRegisters) :
    ∀ instruction ∈ instructionsFrom initial registers rows,
      instruction.Writable header width := by
  induction rows generalizing registers with
  | nil => simp [instructionsFrom]
  | cons row rows induction =>
      rw [List.forall_mem_cons] at fits
      rw [instructionsFrom, List.forall_mem_append]
      exact ⟨instructions_writable standard fits.1 registers, induction fits.2 _⟩

end WrittenRow

theorem mapM_eq_ok {α β ε : Type} {function : α → Except ε β} {meaning : α → β} {values : List α}
    (succeeds : ∀ value ∈ values, function value = .ok (meaning value)) :
    values.mapM function = .ok (values.map meaning) := by
  induction values with
  | nil => rfl
  | cons value values induction =>
      rw [List.forall_mem_cons] at succeeds
      rw [List.mapM_cons, succeeds.1, induction succeeds.2]
      rfl

/-- The path of a file that names no directory, or one of those there are. -/
def FileEntry.path (directories : List String) (file : FileEntry) : String :=
  if Path.isAbsolute file.name || file.directory = 0 then file.name
  else Path.join (directories[file.directory.toNat - 1]?.getD "") file.name

/-- The file needs no directory, or names one that there is. -/
def FileEntry.Found (directories : List String) (file : FileEntry) : Prop :=
  Path.isAbsolute file.name = true ∨ file.directory = 0 ∨
    file.directory.toNat ≤ directories.length

instance (directories : List String) (file : FileEntry) : Decidable (file.Found directories) :=
  inferInstanceAs (Decidable (_ ∨ _))

theorem LineHeader.filePath?_eq_some {directories : List String} {file : FileEntry}
    (found : file.Found directories) :
    filePath? directories file = some (file.path directories) := by
  unfold filePath? FileEntry.path
  split
  · rfl
  · rename_i placed
    simp only [Bool.or_eq_true, decide_eq_true_eq, not_or] at placed
    have declared := (found.resolve_left placed.1).resolve_left placed.2
    have positive : file.directory.toNat ≠ 0 := fun isZero =>
      placed.2 (UInt64.toNat_inj.mp isZero)
    rw [List.getElem?_eq_getElem (by omega)]
    rfl

namespace LineTable

theorem resolvePaths_eq_ok {directories : List String} {files : List FileEntry}
    (found : ∀ file ∈ files, file.Found directories) :
    resolvePaths directories files = .ok (files.map (FileEntry.path directories)) := by
  have resolved : resolvePaths directories files =
      .ok ((files.zipIdx 1).map fun pair => FileEntry.path directories pair.1) := by
    apply mapM_eq_ok
    intro pair member
    have foundHere := found pair.1 (List.fst_mem_of_mem_zipIdx member)
    dsimp only
    unfold resolvePath
    rw [LineHeader.filePath?_eq_some foundHere]
  have unnumbered : files = (files.zipIdx 1).map Prod.fst := (List.zipIdx_map_fst 1 files).symm
  rw [resolved]
  conv => rhs; rw [unnumbered, List.map_map]
  rfl

theorem resolveRows_eq_ok {count : Nat} {emitted : List LineRegisters}
    (fits : ∀ registers ∈ emitted, 0 < registers.file.toNat ∧ registers.file.toNat ≤ count) :
    resolveRows count emitted =
      .ok (emitted.map fun registers => (WrittenRow.ofRegisters registers).lineRow) := by
  apply mapM_eq_ok
  intro registers member
  unfold resolveRow
  rw [if_pos (fits registers member)]
  rfl

theorem ofState_eq_ok {header : LineHeader} {state : LineState} {paths : List String}
    {rows : List LineRow}
    (pathsResolve : resolvePaths header.directories state.files.toList = .ok paths)
    (rowsResolve : resolveRows paths.length state.rows.toList = .ok rows) :
    ∃ table, ofState header state = .ok table ∧
      table.header = { header with files := state.files.toList } ∧ table.paths = paths ∧
        table.rows = rows := by
  unfold ofState
  dsimp only
  rw [pathsResolve]
  dsimp only
  split
  · rename_i fault failed
    rw [rowsResolve] at failed
    cases failed
  · rename_i resolved success
    rw [rowsResolve] at success
    cases success
    exact ⟨_, rfl, rfl, rfl, rfl⟩

theorem ofProgram_eq_ok {header : LineHeader} {opcodes next : Cursor} {addressSize : UInt8}
    {instructions : List LineInstruction} {table : LineTable}
    (reads : (LineInstruction.program header addressSize).run opcodes = .ok (instructions, next))
    (succeeds : ofState header ((LineState.initial header).run header instructions) = .ok table) :
    ofProgram header opcodes addressSize = .ok table := by
  unfold ofProgram
  rw [reads]
  dsimp only [Bind.bind, Except.bind]
  rw [succeeds]

theorem ofState_written (header : LineHeader)
    (declared : ∀ file ∈ header.files, file.directory.toNat ≤ header.directories.length)
    {width : Width} {rows : List WrittenRow}
    (fits : ∀ row ∈ rows, row.Fits width header.files.length) :
    ∃ table, ofState header ((LineState.initial header).run header
        (WrittenRow.program header rows)) = .ok table ∧ table.header = header ∧
      table.paths = header.files.map (FileEntry.path header.directories) ∧
        table.rows = rows.map WrittenRow.lineRow := by
  obtain ⟨filesStay, emitted⟩ := LineState.run_program header rows
  generalize (LineState.initial header).run header (WrittenRow.program header rows) = final
    at filesStay emitted ⊢
  have files : final.files.toList = header.files := by rw [filesStay]
  have pathsResolve : resolvePaths header.directories final.files.toList =
      .ok (header.files.map (FileEntry.path header.directories)) := by
    rw [files]
    exact resolvePaths_eq_ok fun file member => .inr (.inr (declared file member))
  have rowsResolve : resolveRows (header.files.map (FileEntry.path header.directories)).length
      final.rows.toList = .ok (rows.map WrittenRow.lineRow) := by
    rw [← emitted, List.map_map, List.length_map]
    apply resolveRows_eq_ok
    intro registers member
    have row := fits (WrittenRow.ofRegisters registers) (by
      rw [← emitted]
      exact List.mem_map_of_mem member)
    exact ⟨row.file_pos, row.file_le⟩
  obtain ⟨table, succeeds, sameHeader, paths, tableRows⟩ := ofState_eq_ok pathsResolve rowsResolve
  rw [files] at sameHeader
  exact ⟨table, succeeds, sameHeader, paths, tableRows⟩

/-- A program that is written for rows is decoded to a table of these rows, behind whatever stands
before it in the section and in front of whatever follows it. -/
theorem decode_written {header : LineHeader} (wellFormed : header.WellFormed)
    (standard : 6 < header.opcodeBase)
    (declared : ∀ file ∈ header.files, file.directory.toNat ≤ header.directories.length)
    {width : Width} {rows : List WrittenRow}
    (fits : ∀ row ∈ rows, row.Fits width header.files.length) {extra : Bytes}
    (short : (header.encodeHead extra ++ WrittenRow.encodeProgram header width rows).length <
      0xfffffff0) {lines suffix : Bytes}
    (stands : lines.drop header.offset =
      header.encode extra (WrittenRow.encodeProgram header width rows) ++ suffix) :
    ∃ table, decode lines header.offset width.toUInt8 = .ok table ∧
      table.header = header.measured extra (WrittenRow.encodeProgram header width rows) ∧
        table.paths = header.files.map (FileEntry.path header.directories) ∧
          table.rows = rows.map WrittenRow.lineRow := by
  have nonempty : header.encode extra (WrittenRow.encodeProgram header width rows) ≠ [] := by
    simp [LineHeader.encode, Bytes.ofNumber]
  obtain ⟨opcodes, rest, reads⟩ := LineHeader.decoder_reads wellFormed short
    (Cursor.offset_startingAt .lines header.offset (lines.drop header.offset))
  have headerRead := reads.runAt (Bytes.offset_le_of_drop stands nonempty) stands
  have programRead := (LineInstruction.program_reads _
    (WrittenRow.instructionsFrom_writable standard fits (.initial header) (.initial header))).run
    (rest.trans (List.append_nil _).symm)
  obtain ⟨table, succeeds, sameHeader, paths, tableRows⟩ :=
    ofState_written (header.measured extra (WrittenRow.encodeProgram header width rows)) declared
      fits
  refine ⟨table, ?_, sameHeader, paths, tableRows⟩
  unfold decode
  rw [headerRead]
  exact ofProgram_eq_ok programRead succeeds

/-- A line program is read back as it was written, whatever its section holds before and behind it
and whatever else its header covers. The table has the fields of the header with the lengths that
writing gave them, the path of every file in order, and exactly the rows, those that end a sequence
among them. -/
theorem decode_encode_program {header : LineHeader} (wellFormed : header.WellFormed)
    (standard : 6 < header.opcodeBase)
    (declared : ∀ file ∈ header.files, file.directory.toNat ≤ header.directories.length)
    (width : Width) {rows : List WrittenRow}
    (fits : ∀ row ∈ rows, row.Fits width header.files.length) (extra before behind : Bytes)
    (place : header.offset = before.length)
    (short : (header.encodeHead extra ++ WrittenRow.encodeProgram header width rows).length <
      0xfffffff0) :
    ∃ table,
      decode (before ++
          (header.encode extra (WrittenRow.encodeProgram header width rows) ++ behind))
        before.length width.toUInt8 = .ok table ∧
      table.header = header.measured extra (WrittenRow.encodeProgram header width rows) ∧
      table.paths = header.files.map (FileEntry.path header.directories) ∧
      table.rows = rows.map WrittenRow.lineRow := by
  rw [← place]
  apply decode_written wellFormed standard declared fits short
  rw [place]
  exact List.drop_left

/-- A program of the oldest version with no more opcodes than rows need. It has a file of each kind:
in a directory, in none, and with an absolute name. -/
def sampleHeader : LineHeader where
  offset := 2
  unitLength := 0
  version := .two
  headerLength := 0
  minimumInstructionLength := 4
  maximumOperations := 1
  defaultIsStatement := false
  lineBase := -3
  lineRange := 12
  opcodeBase := 7
  operandCounts := [0, 1, 1, 1, 1, 0]
  directories := ["lib", "src/"]
  files := [{ name := "a.c", directory := 2, modified := 0, size := 300 },
    { name := "b.c", directory := 0, modified := 7, size := 0 },
    { name := "/c.h", directory := 1, modified := 0, size := 0 }]

/-- Two sequences. Lines fall as well as rise, and the second sequence begins anew. -/
def sampleRows : List WrittenRow := [
  { address := 0x4000, file := 1, line := 900, column := 3, isStatement := true
    endSequence := false },
  { address := 0x4008, file := 3, line := 2, column := 0, isStatement := false
    endSequence := false },
  { address := 0x4010, file := 3, line := 2, column := 0, isStatement := false
    endSequence := true },
  { address := 0xffff, file := 2, line := 0, column := 200, isStatement := false
    endSequence := true }]

theorem decode_encode_sampleProgram :
    ∃ table,
      decode ([1, 2] ++ (sampleHeader.encode [9]
          (WrittenRow.encodeProgram sampleHeader .two sampleRows) ++ [3])) 2 2 = .ok table ∧
        table.paths = ["src/a.c", "b.c", "/c.h"] ∧ table.rows.map (·.file) = [0, 2, 2, 1] := by
  have wellFormed : sampleHeader.WellFormed := by constructor <;> decide
  have short : (sampleHeader.encodeHead [9] ++
      WrittenRow.encodeProgram sampleHeader .two sampleRows).length < 0xfffffff0 := by
    decide +kernel
  have fits : ∀ row ∈ sampleRows, row.Fits .two sampleHeader.files.length := by decide
  obtain ⟨table, decodes, -, paths, rows⟩ := decode_encode_program wellFormed (by decide)
    (by decide) .two fits [9] [1, 2] [3] rfl short
  exact ⟨table, decodes, paths.trans (by decide +kernel), by rw [rows]; rfl⟩

end LineTable

end Symbolication
