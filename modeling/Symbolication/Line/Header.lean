import Symbolication.Decoder.Header
import Symbolication.Decoder.Repetition
import Symbolication.Path

/-!
Line program headers: the numbers that give opcodes their meaning, and the directories and files
that rows refer to.
-/

namespace Symbolication

structure FileEntry where
  name : String
  /-- An include directory counted from one, or zero for none. -/
  directory : UInt64
  modified : UInt64
  size : UInt64
deriving DecidableEq, Repr

def FileEntry.decoder (name : String) : Decoder FileEntry := do
  let directory ← Decoder.unsigned
  let modified ← Decoder.unsigned
  let size ← Decoder.unsigned
  pure { name, directory, modified, size }

structure LineHeader where
  offset : Nat
  unitLength : Nat
  version : Version
  /-- The size of the fields behind the header length itself. -/
  headerLength : Nat
  minimumInstructionLength : UInt8
  maximumOperations : UInt8
  defaultIsStatement : Bool
  lineBase : Int8
  lineRange : UInt8
  /-- The first special opcode. -/
  opcodeBase : UInt8
  /-- How many operands each standard opcode takes, from opcode 1 on. -/
  operandCounts : Bytes
  directories : List String
  files : List FileEntry
deriving DecidableEq, Repr

namespace LineHeader

def directoryNames : Decoder (List String) :=
  .itemsUntil .terminated Decoder.terminated_consumes fun name =>
    pure (if name = [] then none else some (Utf8.lossyText name))

def fileEntries : Decoder (List FileEntry) :=
  .itemsUntil .terminated Decoder.terminated_consumes fun name =>
    if name = [] then pure none else some <$> FileEntry.decoder (Utf8.lossyText name)

/-- Refuses a program whose arithmetic would divide by zero or count below zero. -/
def checkNonzero (start : Nat) (lineRange opcodeBase maximumOperations : UInt8) : Decoder Unit :=
  if lineRange = 0 then Decoder.failAt start (.invalidLineProgram .zeroLineRange)
  else if opcodeBase = 0 then Decoder.failAt start (.invalidLineProgram .zeroOpcodeBase)
  else if maximumOperations = 0 then
    Decoder.failAt start (.invalidLineProgram .zeroMaximumOperations)
  else pure ()

/-- The fields behind the header length. -/
def fields (start unitLength : Nat) (version : Version) (headerLength : Nat) :
    Decoder LineHeader := do
  let minimumInstructionLength ← Decoder.byte
  let maximumOperations ← if version = .four then Decoder.byte else pure 1
  let defaultIsStatement ← Decoder.byte
  let lineBase ← Decoder.signedByte
  let lineRange ← Decoder.byte
  let opcodeBase ← Decoder.byte
  checkNonzero start lineRange opcodeBase maximumOperations
  let operandCounts ← Decoder.take (opcodeBase.toNat - 1)
  let directories ← directoryNames
  let files ← fileEntries
  pure {
    offset := start
    unitLength
    version
    headerLength
    minimumInstructionLength
    maximumOperations
    defaultIsStatement := defaultIsStatement ≠ 0
    lineBase
    lineRange
    opcodeBase
    operandCounts
    directories
    files }

/-- The header and the window of the opcodes behind it. Bytes that the header length covers behind
the last field are passed over. -/
def contents (start unitLength : Nat) : Decoder (LineHeader × Cursor) := do
  let version ← Decoder.version start
  let headerLength ← Decoder.uint32
  let fieldWindow ← Decoder.window headerLength.toNat
  let program ← Decoder.cursor
  let header ← Decoder.within fieldWindow (fields start unitLength version headerLength.toNat)
  pure (header, program)

def decoder : Decoder (LineHeader × Cursor) := do
  let (start, unitLength) ← Decoder.located Decoder.initialLength
  let window ← Decoder.window unitLength
  Decoder.within window (contents start unitLength)

/-- How a file entry is found from the directory of the unit. Answers `none` if it names a directory
that does not exist. -/
def filePath? (directories : List String) (file : FileEntry) : Option String :=
  if Path.isAbsolute file.name || file.directory = 0 then some file.name
  else
    (directories[file.directory.toNat - 1]?).map fun directory => Path.join directory file.name

end LineHeader

end Symbolication
