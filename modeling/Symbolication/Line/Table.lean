import Symbolication.Line.Machine

/-!
Line tables: the rows of a line program with their files resolved. A row covers its own address and
everything up to the next row of its sequence; the last row of a sequence only bounds the row
before it.
-/

namespace Symbolication

structure LineRow where
  address : UInt64
  /-- Index of a path of the table, from zero. -/
  file : Nat
  line : UInt64
  column : UInt64
  isStatement : Bool
  endSequence : Bool
deriving DecidableEq, Repr

structure LineTable where
  /-- The header, with the files that the program declared behind its own. -/
  header : LineHeader
  paths : List String
  rows : List LineRow
  file_lt : ∀ row ∈ rows, row.file < paths.length
deriving DecidableEq, Repr

namespace LineTable

/-- The path of a file. The error tells the file's number. -/
def resolvePath (directories : List String) (file : FileEntry) (number : Nat) :
    Except LineProgramFault String :=
  match LineHeader.filePath? directories file with
  | none => .error (.missingDirectory number)
  | some path => .ok path

def resolvePaths (directories : List String) (files : List FileEntry) :
    Except LineProgramFault (List String) :=
  (files.zipIdx 1).mapM fun (file, number) => resolvePath directories file number

/-- The row of emitted registers. Its file has to be one of `count`. -/
def resolveRow (count : Nat) (registers : LineRegisters) : Except LineProgramFault LineRow :=
  if 0 < registers.file.toNat ∧ registers.file.toNat ≤ count then
    .ok {
      address := registers.address
      file := registers.file.toNat - 1
      line := registers.line
      column := registers.column
      isStatement := registers.isStatement
      endSequence := registers.endSequence }
  else
    .error (.missingFile registers.address registers.file)

theorem resolveRow_file_lt {count : Nat} {registers : LineRegisters} {row : LineRow}
    (resolved : resolveRow count registers = .ok row) : row.file < count := by
  simp only [resolveRow] at resolved
  split at resolved
  · cases resolved
    dsimp only
    omega
  · cases resolved

def resolveRows (count : Nat) (emitted : List LineRegisters) :
    Except LineProgramFault (List LineRow) :=
  emitted.mapM (resolveRow count)

theorem resolveRows_file_lt {count : Nat} {emitted : List LineRegisters} {rows : List LineRow}
    (resolved : resolveRows count emitted = .ok rows) : ∀ row ∈ rows, row.file < count := by
  induction emitted generalizing rows with
  | nil =>
      cases resolved
      simp
  | cons registers rest induction =>
      simp only [resolveRows, List.mapM_cons, bind, Except.bind] at resolved
      split at resolved
      · cases resolved
      · rename_i row row_resolved
        split at resolved
        · cases resolved
        · rename_i others others_resolved
          cases resolved
          simp only [List.mem_cons, forall_eq_or_imp]
          exact ⟨resolveRow_file_lt row_resolved, induction others_resolved⟩

/-- The table of a program that has run. Files are checked before rows, each in order. -/
def ofState (header : LineHeader) (state : LineState) : Except LineProgramFault LineTable :=
  let files := state.files.toList
  match resolvePaths header.directories files with
  | .error fault => .error fault
  | .ok paths =>
      match resolved : resolveRows paths.length state.rows.toList with
      | .error fault => .error fault
      | .ok rows =>
          .ok { header := { header with files }, paths, rows
                file_lt := resolveRows_file_lt resolved }

/-- Reads and runs the program behind a header. -/
def ofProgram (header : LineHeader) (program : Cursor) (addressSize : UInt8) :
    Except DecodeError LineTable := do
  let (instructions, _) ← (LineInstruction.program header addressSize).run program
  match ofState header ((LineState.initial header).run header instructions) with
  | .ok table => .ok table
  | .error fault =>
      .error { source := .lines, offset := header.offset, fault := .invalidLineProgram fault }

/-- The table of the program at an offset. The address size matters only where the program sets an
address. -/
def decode (lines : Bytes) (offset : Nat) (addressSize : UInt8) : Except DecodeError LineTable := do
  let (header, program) ← LineHeader.decoder.runAt .lines lines offset
  ofProgram header program addressSize

/-- Whether a row covers the address when `next` follows it. -/
def covers (row : LineRow) (next : Option LineRow) (address : UInt64) : Bool :=
  row.address = address ||
    next.any fun next => row.address ≤ address && address < next.address

/-- The first row that covers the address and ends no sequence. -/
def findRow? (address : UInt64) : List LineRow → Option LineRow
  | [] => none
  | row :: rest =>
      if !row.endSequence && covers row rest.head? address then some row
      else findRow? address rest

theorem mem_of_findRow? {address : UInt64} {rows : List LineRow} {row : LineRow}
    (found : findRow? address rows = some row) : row ∈ rows := by
  induction rows with
  | nil => simp [findRow?] at found
  | cons first rest induction =>
      simp only [findRow?] at found
      split at found
      · simp_all
      · exact List.mem_cons_of_mem _ (induction found)

def locate? (table : LineTable) (address : UInt64) : Option (LineRow × String) :=
  match found : findRow? address table.rows with
  | none => none
  | some row =>
      some (row, table.paths.get ⟨row.file, table.file_lt row (mem_of_findRow? found)⟩)

end LineTable

end Symbolication
