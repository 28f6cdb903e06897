import Symbolication.Proofs.Line.Emission

/-!
Which programs have a table. A program that can be read has one exactly if every file, declared in
the header or on the way, lies in a directory that there is, and every row names one of these files;
a row may do so before the file is declared. Of all that is wrong, what cannot be read is reported
first, then the first file, then the first row.
-/

namespace Symbolication

theorem mapM_eq_error {α β ε : Type} {function : α → Except ε β} {fails : α → Bool} {value : α}
    {fault : ε} {values : List α}
    (succeeds : ∀ value, fails value = false → ∃ result, function value = .ok result)
    (failed : function value = .error fault) (isFirst : values.find? fails = some value) :
    values.mapM function = .error fault := by
  induction values with
  | nil => cases isFirst
  | cons other values induction =>
      rw [List.mapM_cons]
      rw [List.find?_cons] at isFirst
      split at isFirst
      · cases isFirst
        rw [failed]
        rfl
      · rename_i good
        obtain ⟨result, success⟩ := succeeds other good
        rw [success, induction isFirst]
        rfl

theorem LineHeader.filePath?_eq_none {directories : List String} {file : FileEntry}
    (missing : ¬file.Found directories) : filePath? directories file = none := by
  simp only [FileEntry.Found, not_or, Bool.not_eq_true] at missing
  obtain ⟨relative, placed, outside⟩ := missing
  unfold filePath?
  rw [if_neg (by simp [relative, placed]), List.getElem?_eq_none (by omega)]
  rfl

/-- The row names one of so many files. -/
def LineRegisters.NamesFile (count : Nat) (registers : LineRegisters) : Prop :=
  1 ≤ registers.file.toNat ∧ registers.file.toNat ≤ count

instance (count : Nat) (registers : LineRegisters) : Decidable (registers.NamesFile count) :=
  inferInstanceAs (Decidable (_ ∧ _))

/-- The files of a program: those of its header, and behind them those that it declares. -/
def LineHeader.filesWith (header : LineHeader) (instructions : List LineInstruction) :
    List FileEntry :=
  header.files ++ LineInstruction.declaredFiles instructions

namespace LineTable

variable {header : LineHeader} {addressSize : UInt8} {lines : Bytes} {offset : Nat}
  {opcodes next : Cursor} {instructions : List LineInstruction} {directories : List String}
  {files : List FileEntry}

theorem resolvePaths_eq_error {file : FileEntry} {number : Nat}
    (isFirst : (files.zipIdx 1).find? (fun (file, _) => ¬file.Found directories) =
      some (file, number)) :
    resolvePaths directories files = .error (.missingDirectory number) := by
  have missing : ¬file.Found directories := by simpa using List.find?_some isFirst
  refine mapM_eq_error ?_ ?_ isFirst
  · intro numbered found
    have found : numbered.1.Found directories := by simpa using found
    refine ⟨numbered.1.path directories, ?_⟩
    dsimp only
    unfold resolvePath
    rw [LineHeader.filePath?_eq_some found]
  · dsimp only
    unfold resolvePath
    rw [LineHeader.filePath?_eq_none missing]

theorem resolveRows_eq_error {count : Nat} {emitted : List LineRegisters} {row : LineRegisters}
    (isFirst : emitted.find? (fun row => ¬row.NamesFile count) = some row) :
    resolveRows count emitted = .error (.missingFile row.address row.file) := by
  have missing : ¬row.NamesFile count := by simpa using List.find?_some isFirst
  refine mapM_eq_error ?_ (if_neg missing) isFirst
  intro other named
  have named : other.NamesFile count := by simpa using named
  exact ⟨_, if_pos named⟩

theorem ofState_eq_error_of_file {state : LineState} {file : FileEntry} {number : Nat}
    (isFirst : (state.files.toList.zipIdx 1).find? (fun (file, _) =>
      ¬file.Found header.directories) = some (file, number)) :
    ofState header state = .error (.missingDirectory number) := by
  unfold ofState
  dsimp only
  rw [resolvePaths_eq_error isFirst]

theorem ofState_eq_error_of_row {state : LineState} {row : LineRegisters}
    (found : ∀ file ∈ state.files.toList, file.Found header.directories)
    (isFirst : state.rows.toList.find? (fun row => ¬row.NamesFile state.files.size) = some row) :
    ofState header state = .error (.missingFile row.address row.file) := by
  unfold ofState
  dsimp only
  rw [resolvePaths_eq_ok found]
  dsimp only
  split
  · rename_i fault failed
    rw [List.length_map, Array.length_toList, resolveRows_eq_error isFirst] at failed
    cases failed
    rfl
  · rename_i rows resolved
    rw [List.length_map, Array.length_toList, resolveRows_eq_error isFirst] at resolved
    cases resolved

/-- The program is read as these instructions. -/
theorem decode_of_reads (headerReads : LineHeader.decoder.runAt .lines lines offset =
      .ok (header, opcodes))
    (reads : (LineInstruction.program header addressSize).run opcodes = .ok (instructions, next)) :
    decode lines offset addressSize =
      ofFinal header ((LineState.initial header).run header instructions) :=
  HasProgram.decode_eq ⟨opcodes, next, headerReads, rfl, reads⟩

theorem decode_of_not_reads {error : DecodeError}
    (headerReads : LineHeader.decoder.runAt .lines lines offset = .ok (header, opcodes))
    (unread : (LineInstruction.program header addressSize).run opcodes = .error error) :
    decode lines offset addressSize = .error error := by
  unfold decode
  rw [headerReads]
  change ofProgram header opcodes addressSize = _
  unfold ofProgram
  rw [unread]
  rfl

/-- The files and rows that a run of a program leaves. -/
theorem files_and_rows (header : LineHeader) (instructions : List LineInstruction) :
    ((LineState.initial header).run header instructions).files.toList =
        header.filesWith instructions ∧
      ((LineState.initial header).run header instructions).rows.toList =
        LineRegisters.emissions header (.initial header) instructions :=
  ⟨LineState.run_files, LineState.run_initial_rows⟩

theorem ofFinal_of_file {file : FileEntry} {number : Nat}
    (isFirst : ((header.filesWith instructions).zipIdx 1).find? (fun (file, _) =>
      ¬file.Found header.directories) = some (file, number)) :
    ofFinal header ((LineState.initial header).run header instructions) =
      .error { source := .lines, offset := header.offset
               fault := .invalidLineProgram (.missingDirectory number) } := by
  rw [← (files_and_rows header instructions).1] at isFirst
  unfold ofFinal
  rw [ofState_eq_error_of_file isFirst]
  rfl

theorem ofFinal_of_row {row : LineRegisters}
    (found : ∀ file ∈ header.filesWith instructions, file.Found header.directories)
    (isFirst : (LineRegisters.emissions header (.initial header) instructions).find?
      (fun row => ¬row.NamesFile (header.filesWith instructions).length) = some row) :
    ofFinal header ((LineState.initial header).run header instructions) =
      .error { source := .lines, offset := header.offset
               fault := .invalidLineProgram (.missingFile row.address row.file) } := by
  obtain ⟨files, rows⟩ := files_and_rows header instructions
  rw [← files, Array.length_toList, ← rows] at isFirst
  rw [← files] at found
  unfold ofFinal
  rw [ofState_eq_error_of_row found isFirst]
  rfl

theorem ofFinal_of_named
    (found : ∀ file ∈ header.filesWith instructions, file.Found header.directories)
    (named : ∀ row ∈ LineRegisters.emissions header (.initial header) instructions,
      row.NamesFile (header.filesWith instructions).length) :
    ∃ table,
      ofFinal header ((LineState.initial header).run header instructions) = .ok table ∧
      table.header.files = header.filesWith instructions ∧
      table.paths = (header.filesWith instructions).map (FileEntry.path header.directories) ∧
      table.rows = (LineRegisters.emissions header (.initial header) instructions).map
        (fun row => (WrittenRow.ofRegisters row).lineRow) := by
  obtain ⟨files, rows⟩ := files_and_rows header instructions
  rw [← files] at found named ⊢
  rw [← rows] at named ⊢
  have pathsResolve := resolvePaths_eq_ok found
  have rowsResolve := resolveRows_eq_ok named
  rw [← List.length_map (FileEntry.path header.directories)] at rowsResolve
  obtain ⟨table, resolved, sameHeader, paths, tableRows⟩ := ofState_eq_ok pathsResolve rowsResolve
  exact ⟨table, ofFinal_eq_ok_iff.mpr resolved, congrArg LineHeader.files sameHeader, paths,
    tableRows⟩

/-- A table needs its files and rows to be right: the first that is not is an error. -/
theorem ofFinal_eq_ok {table : LineTable}
    (accepted : ofFinal header ((LineState.initial header).run header instructions) = .ok table) :
    (∀ file ∈ header.filesWith instructions, file.Found header.directories) ∧
      ∀ row ∈ LineRegisters.emissions header (.initial header) instructions,
        row.NamesFile (header.filesWith instructions).length := by
  have found : ∀ file ∈ header.filesWith instructions, file.Found header.directories := by
    cases search : ((header.filesWith instructions).zipIdx 1).find? (fun (file, _) =>
        ¬file.Found header.directories) with
    | some numbered =>
        rw [ofFinal_of_file search] at accepted
        cases accepted
    | none =>
        intro file member
        rw [← List.zipIdx_map_fst 1 (header.filesWith instructions)] at member
        obtain ⟨numbered, isNumbered, rfl⟩ := List.mem_map.mp member
        simpa using List.find?_eq_none.mp search numbered isNumbered
  refine ⟨found, ?_⟩
  cases search : (LineRegisters.emissions header (.initial header) instructions).find?
      (fun row => ¬row.NamesFile (header.filesWith instructions).length) with
  | some row =>
      rw [ofFinal_of_row found search] at accepted
      cases accepted
  | none =>
      intro row member
      simpa using List.find?_eq_none.mp search row member

theorem contents_of_ofFinal {table : LineTable}
    (accepted : ofFinal header ((LineState.initial header).run header instructions) = .ok table) :
    table.header.files = header.filesWith instructions ∧
      table.paths = (header.filesWith instructions).map (FileEntry.path header.directories) ∧
      table.rows = (LineRegisters.emissions header (.initial header) instructions).map
        (fun row => (WrittenRow.ofRegisters row).lineRow) := by
  obtain ⟨found, named⟩ := ofFinal_eq_ok accepted
  obtain ⟨same, acceptedSame, contents⟩ := ofFinal_of_named found named
  obtain rfl : table = same := Except.ok.inj (accepted.symm.trans acceptedSame)
  exact contents

/-- A program is accepted exactly if it can be read to its end, every file lies in a directory that
there is, and every row names one of the files, be they declared before it or behind it. Then there
is a path for each file and a row for each one emitted, in order. If it is not accepted, what cannot
be read is reported, or else the first file that is missing, or else the first row that names no
file. -/
theorem programs_are_accepted (lines : Bytes) (offset : Nat) (addressSize : UInt8)
    (header : LineHeader) (opcodes : Cursor)
    (headerReads : LineHeader.decoder.runAt .lines lines offset = .ok (header, opcodes)) :
    ((∃ table, decode lines offset addressSize = .ok table) ↔
      ∃ instructions next,
        (LineInstruction.program header addressSize).run opcodes = .ok (instructions, next) ∧
        (∀ file ∈ header.filesWith instructions, file.Found header.directories) ∧
        ∀ row ∈ LineRegisters.emissions header (.initial header) instructions,
          row.NamesFile (header.filesWith instructions).length) ∧
    (∀ error, (LineInstruction.program header addressSize).run opcodes = .error error →
      decode lines offset addressSize = .error error) ∧
    ∀ instructions next,
      (LineInstruction.program header addressSize).run opcodes = .ok (instructions, next) →
      (∀ table, decode lines offset addressSize = .ok table →
        table.header.files = header.filesWith instructions ∧
        table.paths = (header.filesWith instructions).map (FileEntry.path header.directories) ∧
        table.rows = (LineRegisters.emissions header (.initial header) instructions).map
          (fun row => (WrittenRow.ofRegisters row).lineRow) ∧
        table.rows.length = instructions.countP LineInstruction.emits ∧
        ∀ row ∈ table.rows, row.file < table.paths.length) ∧
      (∀ file number, ((header.filesWith instructions).zipIdx 1).find?
          (fun (file, _) => ¬file.Found header.directories) = some (file, number) →
        decode lines offset addressSize = .error
          { source := .lines, offset, fault := .invalidLineProgram (.missingDirectory number) }) ∧
      ((∀ file ∈ header.filesWith instructions, file.Found header.directories) →
        ∀ row, (LineRegisters.emissions header (.initial header) instructions).find?
            (fun row => ¬row.NamesFile (header.filesWith instructions).length) = some row →
          decode lines offset addressSize = .error
            { source := .lines, offset
              fault := .invalidLineProgram (.missingFile row.address row.file) }) := by
  have place : header.offset = offset := LineHeader.offset_of_runAt headerReads
  subst place
  refine ⟨⟨?_, ?_⟩, fun error => decode_of_not_reads headerReads, ?_⟩
  · rintro ⟨table, decodes⟩
    cases reads : (LineInstruction.program header addressSize).run opcodes with
    | error error =>
        rw [decode_of_not_reads headerReads reads] at decodes
        cases decodes
    | ok result =>
        rw [decode_of_reads headerReads reads] at decodes
        exact ⟨result.1, result.2, rfl, ofFinal_eq_ok decodes⟩
  · rintro ⟨instructions, next, reads, found, named⟩
    obtain ⟨table, decodes, _⟩ := ofFinal_of_named found named
    exact ⟨table, (decode_of_reads headerReads reads).trans decodes⟩
  · intro instructions next reads
    rw [decode_of_reads headerReads reads]
    refine ⟨?_, fun file number => ofFinal_of_file, fun found row => ofFinal_of_row found⟩
    intro table decodes
    obtain ⟨files, paths, rows⟩ := contents_of_ofFinal decodes
    refine ⟨files, paths, rows, ?_, table.file_lt⟩
    rw [rows, List.length_map, LineRegisters.length_emissions]

/-- Rows in a file that is declared behind them. -/
def lateProgram : LineProgramBytes :=
  { declaringProgram with opcodes := [4, 2, 1, 0, 1, 1, 0, 6, 3, 98, 0, 0, 0, 0] }

/-- A file in a directory that there is not, and behind it rows in a file that there is not. -/
def misplacedProgram : LineProgramBytes :=
  { declaringProgram with opcodes := [0, 6, 3, 98, 0, 7, 0, 0, 4, 9, 1, 0, 1, 1] }

theorem programs_are_accepted_late :
    (∃ table, decode (lateProgram.between [9] [7]) 1 8 = .ok table ∧ table.paths = ["a", "b"] ∧
      table.rows.length = 2) ∧
    decode (misplacedProgram.between [9] [7]) 1 8 =
      .error { source := .lines, offset := 1
               fault := .invalidLineProgram (.missingDirectory 2) } := by
  constructor
  · have accepted := programs_are_accepted (lateProgram.between [9] [7]) 1 8 declaringHeader
      (lateProgram.window 1) (by decide +kernel)
    have reads : (LineInstruction.program declaringHeader 8).run (lateProgram.window 1) =
        .ok ([.setFile 2, .copy, .endSequence,
            .defineFile { name := "b", directory := 0, modified := 0, size := 0 }],
          (lateProgram.window 1).after lateProgram.opcodes []) := by decide +kernel
    obtain ⟨table, decodes⟩ := accepted.1.mpr ⟨_, _, reads, by decide, by decide +kernel⟩
    obtain ⟨-, paths, -, count, -⟩ := (accepted.2.2 _ _ reads).1 table decodes
    exact ⟨table, decodes, paths.trans (by decide +kernel), count⟩
  · have refused := programs_are_accepted (misplacedProgram.between [9] [7]) 1 8 declaringHeader
      (misplacedProgram.window 1) (by decide +kernel)
    have reads : (LineInstruction.program declaringHeader 8).run (misplacedProgram.window 1) =
        .ok ([.defineFile { name := "b", directory := 7, modified := 0, size := 0 }, .setFile 9,
            .copy, .endSequence],
          (misplacedProgram.window 1).after misplacedProgram.opcodes []) := by decide +kernel
    exact (refused.2.2 _ _ reads).2.1 { name := "b", directory := 7, modified := 0, size := 0 } 2
      (by decide +kernel)

end LineTable

end Symbolication
