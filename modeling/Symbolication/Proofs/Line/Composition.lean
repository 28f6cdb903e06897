import Mathlib.Data.List.Forall2
import Symbolication.Proofs.Checked.Line.Header
import Symbolication.Proofs.Decoder.Placeless
import Symbolication.Proofs.Line.Framing
import Symbolication.Proofs.Line.Program

/-!
Line programs one behind the other. An instruction is read from its own bytes, so a program that has
been read to its end is the first part of any longer one, and the longer one runs on from where the
first part has come to. At the end of a sequence all registers start anew; what a sequence leaves to
the next one are the files it has declared.
-/

namespace Symbolication

namespace FileEntry

theorem decoder_placeless (name : String) : (FileEntry.decoder name).Placeless :=
  .bind .unsigned fun _ => .bind .unsigned fun _ => .bind .unsigned fun _ => .pure _

end FileEntry

namespace LineInstruction

variable {header : LineHeader} {addressSize : UInt8}

theorem skipOperands_placeless (count : Nat) : (skipOperands count).Placeless := by
  induction count with
  | zero => exact .pure ()
  | succ count induction => exact .bind .unsigned fun _ => induction

theorem standard_placeless (header : LineHeader) (opcode : UInt8) :
    (standard header opcode).Placeless := by
  unfold standard
  split
  · exact .pure _
  · exact Decoder.Placeless.unsigned.map _
  · exact Decoder.Placeless.signed.map _
  · exact Decoder.Placeless.unsigned.map _
  · exact Decoder.Placeless.unsigned.map _
  · exact .pure _
  · exact .pure _
  · exact .pure _
  · exact Decoder.Placeless.uint16.map _
  · exact .pure _
  · exact .pure _
  · exact Decoder.Placeless.unsigned.map _
  · exact (skipOperands_placeless _).bind fun _ => .pure _

theorem extended_placeless (addressSize : UInt8) : (extended addressSize).Placeless := by
  apply Decoder.Placeless.byte.bind
  intro opcode
  split
  · exact .pure _
  · exact (Decoder.Placeless.address addressSize).map _
  · exact .bind .text fun name => (FileEntry.decoder_placeless name).map _
  · exact Decoder.Placeless.unsigned.map _
  · exact .pure _

theorem extendedWithLength_placeless (addressSize : UInt8) :
    (extendedWithLength addressSize).Placeless := by
  apply Decoder.Placeless.length.bind
  intro length
  split
  · exact .pure _
  · exact (extended_placeless addressSize).windowed _

/-- An instruction is read from its own bytes, wherever they stand. -/
theorem decoder_placeless (header : LineHeader) (addressSize : UInt8) :
    (Decoder.byte >>= decoder header addressSize).Placeless := by
  apply Decoder.Placeless.byte.bind
  intro opcode
  unfold decoder
  split
  · exact .pure _
  · split
    · exact extendedWithLength_placeless addressSize
    · exact standard_placeless header opcode

/-- Opcodes that are read to their end are the first part of any longer program. -/
theorem program_append {opcodes longer next : Cursor} {instructions : List LineInstruction}
    {more : Bytes} (reads : (program header addressSize).run opcodes = .ok (instructions, next))
    (ahead : longer.rest = opcodes.rest ++ more) :
    (program header addressSize).run longer =
      (fun (others, final) => (instructions ++ others, final)) <$>
        (program header addressSize).run (longer.after opcodes.rest more) :=
  Decoder.run_itemsToEnd_append (decoder_placeless header addressSize) reads ahead

/-- The same opcodes are the same instructions at another place. -/
theorem program_elsewhere {opcodes other next : Cursor} {instructions : List LineInstruction}
    (reads : (program header addressSize).run opcodes = .ok (instructions, next))
    (same : other.rest = opcodes.rest) :
    ∃ next', (program header addressSize).run other = .ok (instructions, next') := by
  have ahead : other.rest = opcodes.rest ++ [] := by rw [same, List.append_nil]
  have finished : (program header addressSize).run (other.after opcodes.rest []) =
      .ok ([], other.after opcodes.rest []) := Decoder.run_itemsToEnd_nil rfl
  refine ⟨other.after opcodes.rest [], ?_⟩
  rw [program_append reads ahead, finished]
  exact congrArg (fun values => Except.ok (values, _)) (List.append_nil instructions)

theorem program_fails_elsewhere {opcodes other : Cursor} {error : DecodeError}
    (fails : (program header addressSize).run opcodes = .error error)
    (source : other.source = opcodes.source) (same : other.rest = opcodes.rest) :
    ∃ offset, (program header addressSize).run other = .error { error with offset } :=
  Decoder.run_itemsToEnd_eq_error (decoder_placeless header addressSize) source same fails

/-- The files that a program declares, in order. -/
def declaredFiles (instructions : List LineInstruction) : List FileEntry :=
  instructions.filterMap fun
    | .defineFile file => some file
    | _ => none

end LineInstruction

/-- The same header at another place, of a longer program, and with more files behind its own. -/
def LineHeader.extendedBy (header : LineHeader) (offset unitLength headerLength : Nat)
    (files : List FileEntry) : LineHeader :=
  { header with offset, unitLength, headerLength, files := header.files ++ files }

namespace LineState

variable {header : LineHeader} {addressSize : UInt8} {state : LineState}
  {instructions : List LineInstruction}

/-- Reads opcodes to their end and runs them from a state. -/
def interpret (header : LineHeader) (addressSize : UInt8) (state : LineState) (opcodes : Cursor) :
    Except DecodeError LineState :=
  (fun (instructions, _) => state.run header instructions) <$>
    (LineInstruction.program header addressSize).run opcodes

/-- A longer program runs on from where its first part has come to. -/
theorem interpret_append {left : LineState} {opcodes longer : Cursor} {more : Bytes}
    (runs : state.interpret header addressSize opcodes = .ok left)
    (ahead : longer.rest = opcodes.rest ++ more) :
    state.interpret header addressSize longer =
      left.interpret header addressSize (longer.after opcodes.rest more) := by
  unfold interpret at runs ⊢
  cases reads : (LineInstruction.program header addressSize).run opcodes with
  | error error =>
      rw [reads] at runs
      cases runs
  | ok result =>
      obtain ⟨instructions, next⟩ := result
      rw [reads] at runs
      cases runs
      rw [LineInstruction.program_append reads ahead]
      cases (LineInstruction.program header addressSize).run (longer.after opcodes.rest more) with
      | error error => rfl
      | ok result => exact congrArg Except.ok (run_append header state instructions result.1)

/-- The state with rows in front of its own. -/
def behindRows (rows : Array LineRegisters) (state : LineState) : LineState :=
  { state with rows := rows ++ state.rows }

/-- Rows that are there have no influence on what follows. -/
theorem execute_behindRows (rows : Array LineRegisters) (instruction : LineInstruction) :
    (state.behindRows rows).execute header instruction =
      (state.execute header instruction).behindRows rows := by
  cases instruction with
  | special adjusted => simp [behindRows, execute, emit, update]
  | copy => simp [behindRows, execute, emit, update]
  | endSequence => simp [behindRows, execute, emit, update]
  | _ => rfl

theorem run_behindRows (rows : Array LineRegisters) :
    (state.behindRows rows).run header instructions =
      (state.run header instructions).behindRows rows := by
  induction instructions generalizing state with
  | nil => rfl
  | cons instruction instructions induction =>
      change ((state.behindRows rows).execute header instruction).run header instructions = _
      rw [execute_behindRows]
      exact induction

theorem execute_files (instruction : LineInstruction) :
    (state.execute header instruction).files.toList =
      state.files.toList ++ LineInstruction.declaredFiles [instruction] := by
  cases instruction <;>
    simp [execute, emit, update, LineInstruction.declaredFiles]

/-- A run declares the files of its instructions behind those there are. -/
theorem run_files :
    (state.run header instructions).files.toList =
      state.files.toList ++ LineInstruction.declaredFiles instructions := by
  induction instructions generalizing state with
  | nil => simp [run, LineInstruction.declaredFiles]
  | cons instruction instructions induction =>
      change ((state.execute header instruction).run header instructions).files.toList = _
      rw [induction, execute_files, List.append_assoc]
      unfold LineInstruction.declaredFiles
      rw [← List.filterMap_append, List.singleton_append]

/-- Registers start anew behind the end of a sequence. -/
theorem run_registers_of_ended (ended : instructions = [] ∨
    instructions.getLast? = some .endSequence) :
    ((initial header).run header instructions).registers = .initial header := by
  rcases ended with rfl | last
  · rfl
  · obtain ⟨others, rfl⟩ := List.getLast?_eq_some_iff.mp last
    rw [run_append]
    rfl

/-- Behind the end of a sequence, a run goes on as one that begins with the files declared so far.
It only has rows in front of its own. -/
theorem run_behind_ended (ended : instructions = [] ∨ instructions.getLast? = some .endSequence)
    {second : LineHeader} {offset unitLength headerLength : Nat}
    (extended : second = header.extendedBy offset unitLength headerLength
      (LineInstruction.declaredFiles instructions)) (others : List LineInstruction) :
    ((initial header).run header instructions).run header others =
      ((initial second).run second others).behindRows
        ((initial header).run header instructions).rows := by
  have files : ((initial header).run header instructions).files = second.files.toArray := by
    rw [← Array.toList_inj, run_files, extended]
    rfl
  have registers : ((initial header).run header instructions).registers = .initial second := by
    rw [run_registers_of_ended ended, extended]
    rfl
  have sameRun : run header = run second := by
    rw [extended]
    rfl
  rw [sameRun] at files registers ⊢
  rw [← run_behindRows]
  congr 1
  generalize (initial header).run second instructions = left at files registers ⊢
  obtain ⟨leftRegisters, leftFiles, leftRows⟩ := left
  cases files
  cases registers
  exact congrArg (LineState.mk _ _) Array.append_empty.symm

end LineState

theorem mapM_eq_ok_iff {α β ε : Type} {function : α → Except ε β} {values : List α}
    {results : List β} :
    values.mapM function = .ok results ↔
      List.Forall₂ (fun value result => function value = .ok result) values results := by
  induction values generalizing results with
  | nil => simp [pure, Except.pure, eq_comm]
  | cons value values induction =>
      rw [List.mapM_cons, List.forall₂_cons_left_iff]
      simp only [← induction]
      cases function value with
      | error error => simp [bind, Except.bind]
      | ok result =>
          cases values.mapM function with
          | error error => simp [bind, Except.bind]
          | ok others => simp [bind, Except.bind, pure, Except.pure, eq_comm]

namespace LineTable

variable {header : LineHeader} {addressSize : UInt8} {instructions others : List LineInstruction}

/-- A file that there is among fewer files is there among more, and is the same one. -/
theorem resolveRow_of_le {count more : Nat} (fewer : count ≤ more) {registers : LineRegisters}
    {row : LineRow} (resolved : resolveRow count registers = .ok row) :
    resolveRow more registers = .ok row := by
  unfold resolveRow at resolved ⊢
  split at resolved
  · rename_i named
    rw [if_pos ⟨named.1, Nat.le_trans named.2 fewer⟩]
    exact resolved
  · cases resolved

theorem length_of_resolvePaths {directories : List String} {files : List FileEntry}
    {paths : List String} (resolved : resolvePaths directories files = .ok paths) :
    paths.length = files.length := by
  have each := (mapM_eq_ok_iff.mp resolved).length_eq
  rw [List.length_zipIdx] at each
  exact each.symm

theorem resolveRows_append {count more : Nat} (fewer : count ≤ more)
    {first second : List LineRegisters} {rows others : List LineRow}
    (firstResolved : resolveRows count first = .ok rows)
    (secondResolved : resolveRows more second = .ok others) :
    resolveRows more (first ++ second) = .ok (rows ++ others) := by
  have firstAgain := (mapM_eq_ok_iff.mp firstResolved).imp fun _ _ => resolveRow_of_le fewer
  exact mapM_eq_ok_iff.mpr (List.rel_append firstAgain (mapM_eq_ok_iff.mp secondResolved))

theorem ofState_parts {state : LineState} {table : LineTable}
    (resolved : ofState header state = .ok table) :
    resolvePaths header.directories state.files.toList = .ok table.paths ∧
      resolveRows table.paths.length state.rows.toList = .ok table.rows ∧
        table.header = { header with files := state.files.toList } := by
  unfold ofState at resolved
  dsimp only at resolved
  split at resolved
  · cases resolved
  · rename_i paths pathsResolve
    split at resolved
    · cases resolved
    · rename_i rows rowsResolve
      cases resolved
      exact ⟨pathsResolve, rowsResolve, rfl⟩

/-- The table of a program that has run, or the error that it has none. -/
def ofFinal (header : LineHeader) (final : LineState) : Except DecodeError LineTable :=
  (ofState header final).mapError fun fault =>
    { source := .lines, offset := header.offset, fault := .invalidLineProgram fault }

theorem ofFinal_eq_ok_iff {final : LineState} {table : LineTable} :
    ofFinal header final = .ok table ↔ ofState header final = .ok table := by
  unfold ofFinal
  cases ofState header final <;> simp [Except.mapError]

theorem ofProgram_eq (header : LineHeader) (addressSize : UInt8) (opcodes : Cursor) :
    ofProgram header opcodes addressSize =
      (LineState.initial header).interpret header addressSize opcodes >>= ofFinal header := by
  unfold ofProgram LineState.interpret ofFinal
  cases (LineInstruction.program header addressSize).run opcodes with
  | error error => rfl
  | ok result =>
      dsimp only [Bind.bind, Except.bind, Functor.map, Except.map]
      cases ofState header ((LineState.initial header).run header result.1) <;> rfl

/-- At an offset of the section stands a program with this header, whose opcodes are these
instructions. -/
def HasProgram (lines : Bytes) (offset : Nat) (addressSize : UInt8) (header : LineHeader)
    (opcodes : Bytes) (instructions : List LineInstruction) : Prop :=
  ∃ window next, LineHeader.decoder.runAt .lines lines offset = .ok (header, window) ∧
    window.rest = opcodes ∧
      (LineInstruction.program header addressSize).run window = .ok (instructions, next)

theorem HasProgram.sound {lines opcodes : Bytes} {offset : Nat}
    (has : HasProgram lines offset addressSize header opcodes instructions) : header.Sound := by
  obtain ⟨_, _, headerReads, _⟩ := has
  exact LineHeader.sound_of_runAt headerReads

theorem exists_hasProgram {lines : Bytes} {offset : Nat} {opcodes : Cursor} {table : LineTable}
    (headerReads : LineHeader.decoder.runAt .lines lines offset = .ok (header, opcodes))
    (decodes : decode lines offset addressSize = .ok table) :
    ∃ instructions, HasProgram lines offset addressSize header opcodes.rest instructions := by
  unfold decode at decodes
  rw [headerReads] at decodes
  change ofProgram header opcodes addressSize = _ at decodes
  unfold ofProgram at decodes
  cases reads : (LineInstruction.program header addressSize).run opcodes with
  | error error =>
      rw [reads] at decodes
      cases decodes
  | ok result => exact ⟨result.1, opcodes, result.2, headerReads, rfl, reads⟩

theorem HasProgram.decode_eq {lines opcodes : Bytes} {offset : Nat}
    (has : HasProgram lines offset addressSize header opcodes instructions) :
    decode lines offset addressSize =
      ofFinal header ((LineState.initial header).run header instructions) := by
  obtain ⟨window, next, headerReads, _, reads⟩ := has
  unfold decode
  rw [headerReads]
  change ofProgram header window addressSize = _
  rw [ofProgram_eq]
  unfold LineState.interpret
  rw [reads]
  rfl

/-- A program with more opcodes runs on behind its own ones. -/
theorem HasProgram.decode_followedBy {program : LineProgramBytes} {before behind more : Bytes}
    (has : HasProgram (program.between before behind) before.length addressSize header
      program.opcodes instructions) (short : (program.followedBy more).Short) :
    decode ((program.followedBy more).between before behind) before.length addressSize =
      ((LineState.initial header).run header instructions).interpret header addressSize
          ((program.window before.length).after program.opcodes more) >>=
        ofFinal { header with unitLength := (program.followedBy more).unitLength } := by
  obtain ⟨window, next, headerReads, _, reads⟩ := has
  rw [LineProgramBytes.header_reads short.of_followedBy] at headerReads
  cases isHeader : program.header before.length with
  | error error =>
      rw [isHeader] at headerReads
      cases headerReads
  | ok header' =>
      rw [isHeader] at headerReads
      cases headerReads
      have runs : (LineState.initial header).interpret header addressSize
          (program.window before.length) =
            .ok ((LineState.initial header).run header instructions) := by
        unfold LineState.interpret
        rw [reads]
        rfl
      unfold decode
      rw [LineProgramBytes.header_reads short, LineProgramBytes.header_followedBy, isHeader]
      change ofProgram _ ((program.followedBy more).window before.length) addressSize = _
      rw [ofProgram_eq]
      -- The length of the whole is nothing that a program runs by.
      change (LineState.initial header).interpret header addressSize _ >>= _ = _
      rw [LineState.interpret_append runs rfl]
      rfl

/-- Where sequences end with the first program, a second one that is read behind it makes the rows
that it makes on its own where the files of both are declared. -/
theorem HasProgram.decode_behind_ended {program : LineProgramBytes}
    {before behind lines second : Bytes} {offset unitLength headerLength : Nat}
    {firstTable secondTable : LineTable}
    (has : HasProgram (program.between before behind) before.length addressSize header
      program.opcodes instructions)
    (ended : instructions = [] ∨ instructions.getLast? = some .endSequence)
    (decodesFirst : decode (program.between before behind) before.length addressSize =
      .ok firstTable)
    (hasSecond : HasProgram lines offset addressSize (header.extendedBy offset unitLength
      headerLength (LineInstruction.declaredFiles instructions)) second others)
    (decodesSecond : decode lines offset addressSize = .ok secondTable)
    (short : (program.followedBy second).Short) :
    ∃ table,
      decode ((program.followedBy second).between before behind) before.length addressSize =
        .ok table ∧
      table.rows = firstTable.rows ++ secondTable.rows ∧ table.paths = secondTable.paths ∧
        table.header.files = secondTable.header.files := by
  rw [has.decode_eq, ofFinal_eq_ok_iff] at decodesFirst
  rw [hasSecond.decode_eq, ofFinal_eq_ok_iff] at decodesSecond
  obtain ⟨firstPaths, firstRows, _⟩ := ofState_parts decodesFirst
  obtain ⟨secondPaths, secondRows, secondHeader⟩ := ofState_parts decodesSecond
  obtain ⟨window, next, _, rest, reads⟩ := hasSecond
  let left := (LineState.initial header).run header instructions
  let whole : LineHeader := { header with unitLength := (program.followedBy second).unitLength }
  have runsOn := LineState.run_behind_ended ended
    (rfl : header.extendedBy offset unitLength headerLength
      (LineInstruction.declaredFiles instructions) = _) others
  have readsOn : left.interpret header addressSize
      ((program.window before.length).after program.opcodes second) =
        .ok (left.run header others) := by
    have same : ((program.window before.length).after program.opcodes second).rest =
        window.rest := rest.symm
    have readsAlone : (LineInstruction.program header addressSize).run window =
        .ok (others, next) := reads
    obtain ⟨_, reads'⟩ := LineInstruction.program_elsewhere readsAlone same
    unfold LineState.interpret
    rw [reads']
    rfl
  have fewer : firstTable.paths.length ≤ secondTable.paths.length := by
    rw [length_of_resolvePaths firstPaths, length_of_resolvePaths secondPaths,
      LineState.run_files, LineState.run_files]
    simp [LineState.initial, LineHeader.extendedBy]
  have pathsResolve : resolvePaths whole.directories (left.run header others).files.toList =
      .ok secondTable.paths := by
    rw [runsOn]
    exact secondPaths
  have rowsResolve : resolveRows secondTable.paths.length
      (left.run header others).rows.toList = .ok (firstTable.rows ++ secondTable.rows) := by
    rw [runsOn, LineState.behindRows, Array.toList_append]
    exact resolveRows_append fewer firstRows secondRows
  obtain ⟨table, resolved, tableHeader, paths, rows⟩ := ofState_eq_ok pathsResolve rowsResolve
  refine ⟨table, ?_, rows, paths, ?_⟩
  · rw [has.decode_followedBy short, readsOn]
    exact ofFinal_eq_ok_iff.mpr resolved
  · rw [tableHeader, secondHeader, runsOn]
    rfl

/-- Programs compose where one instruction ends and another begins, and sequences are isolated. A
program behind another one runs on from the registers, files and rows that the first one leaves, and
fails exactly if it fails from there. If the first program is empty or ends a sequence, the rows of
both are the rows of each, where the second one is read under the same header with the files that
the first one declares: nothing but these files goes from one sequence into the next. -/
theorem programs_compose (addressSize : UInt8) :
    (∀ (header : LineHeader) (state left : LineState) (first longer : Cursor) (second : Bytes),
        state.interpret header addressSize first = .ok left →
        longer.rest = first.rest ++ second →
        state.interpret header addressSize longer =
          left.interpret header addressSize (longer.after first.rest second)) ∧
      ∀ (program : LineProgramBytes) (before behind : Bytes) (header : LineHeader)
        (instructions : List LineInstruction) (firstTable : LineTable),
        HasProgram (program.between before behind) before.length addressSize header
          program.opcodes instructions →
        (instructions = [] ∨ instructions.getLast? = some .endSequence) →
        decode (program.between before behind) before.length addressSize = .ok firstTable →
        ∀ (lines : Bytes) (offset unitLength headerLength : Nat) (opcodes : Cursor)
          (secondTable : LineTable),
          LineHeader.decoder.runAt .lines lines offset =
            .ok (header.extendedBy offset unitLength headerLength
              (LineInstruction.declaredFiles instructions), opcodes) →
          decode lines offset addressSize = .ok secondTable →
          (program.followedBy opcodes.rest).Short →
          ∃ table,
            decode ((program.followedBy opcodes.rest).between before behind) before.length
              addressSize = .ok table ∧
            table.rows = firstTable.rows ++ secondTable.rows ∧
            table.paths = secondTable.paths ∧
            table.header.files = secondTable.header.files := by
  constructor
  · intro header state left first longer second runs ahead
    exact LineState.interpret_append runs ahead
  · intro program before behind header instructions firstTable has ended decodesFirst lines offset
      unitLength headerLength opcodes secondTable headerReads decodesSecond short
    obtain ⟨others, hasSecond⟩ := exists_hasProgram headerReads decodesSecond
    exact has.decode_behind_ended ended decodesFirst hasSecond decodesSecond short

/-- A program that declares a file and has a row in it. -/
def declaringProgram : LineProgramBytes where
  version := 2
  fields := [1, 1, 255, 4, 10, 0, 1, 1, 1, 1, 0, 0, 0, 1, 0, 97, 0, 0, 0, 0, 0]
  opcodes := [0, 6, 3, 98, 0, 0, 0, 0, 4, 2, 1, 0, 1, 1]

def declaringHeader : LineHeader where
  offset := 1
  unitLength := 41
  version := .two
  headerLength := 21
  minimumInstructionLength := 1
  maximumOperations := 1
  defaultIsStatement := true
  lineBase := -1
  lineRange := 4
  opcodeBase := 10
  operandCounts := [0, 1, 1, 1, 1, 0, 0, 0, 1]
  directories := []
  files := [{ name := "a", directory := 0, modified := 0, size := 0 }]

def declaringInstructions : List LineInstruction :=
  [.defineFile { name := "b", directory := 0, modified := 0, size := 0 }, .setFile 2, .copy,
    .endSequence]

theorem hasProgram_declaring :
    HasProgram (declaringProgram.between [9] [7]) 1 8 declaringHeader declaringProgram.opcodes
      declaringInstructions :=
  ⟨declaringProgram.window 1, (declaringProgram.window 1).after declaringProgram.opcodes [],
    by decide +kernel, rfl, by decide +kernel⟩

def declaringTable : LineTable where
  header := { declaringHeader with
    files := declaringHeader.files ++ LineInstruction.declaredFiles declaringInstructions }
  paths := ["a", "b"]
  rows := [
    { address := 0, file := 1, line := 1, column := 0, isStatement := true, endSequence := false },
    { address := 0, file := 1, line := 1, column := 0, isStatement := true, endSequence := true }]
  file_lt := by decide

/-- A program that has a row in the second of two files. -/
def continuingProgram : LineProgramBytes where
  version := 2
  fields := [1, 1, 255, 4, 10, 0, 1, 1, 1, 1, 0, 0, 0, 1, 0, 97, 0, 0, 0, 0, 98, 0, 0, 0, 0, 0]
  opcodes := [4, 2, 3, 5, 1, 0, 1, 1]

def continuingTable : LineTable where
  header := declaringHeader.extendedBy 0 40 26
    (LineInstruction.declaredFiles declaringInstructions)
  paths := ["a", "b"]
  rows := [
    { address := 0, file := 1, line := 6, column := 0, isStatement := true, endSequence := false },
    { address := 0, file := 1, line := 6, column := 0, isStatement := true, endSequence := true }]
  file_lt := by decide

/-- The second program uses the file that the first one declares, and its lines count anew. -/
theorem programs_compose_declaring :
    ∃ table,
      decode ((declaringProgram.followedBy continuingProgram.opcodes).between [9] [7]) 1 8 =
        .ok table ∧
      table.rows = declaringTable.rows ++ continuingTable.rows ∧ table.paths = ["a", "b"] := by
  have headerReads : LineHeader.decoder.runAt .lines (continuingProgram.between [] []) 0 =
      .ok (declaringHeader.extendedBy 0 40 26
        (LineInstruction.declaredFiles declaringInstructions), continuingProgram.window 0) := by
    decide +kernel
  obtain ⟨table, decodes, rows, paths, _⟩ :=
    (programs_compose 8).2 declaringProgram [9] [7] declaringHeader declaringInstructions
      declaringTable hasProgram_declaring (.inr rfl) (by decide +kernel)
      (continuingProgram.between [] []) 0 40 26 (continuingProgram.window 0) continuingTable
      headerReads (by decide +kernel) (by decide)
  exact ⟨table, decodes, rows, paths⟩

end LineTable

end Symbolication
