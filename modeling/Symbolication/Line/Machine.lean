import Symbolication.Line.Instruction

/-!
The line machine. Its registers describe one machine instruction; a program changes them step by
step and emits a copy of them for every row. Addresses and lines wrap at 64 bits.
-/

namespace Symbolication

structure LineRegisters where
  address : UInt64
  /-- The operation within a long instruction word. -/
  operationIndex : UInt64
  /-- A file counted from one. -/
  file : UInt64
  line : UInt64
  column : UInt64
  isStatement : Bool
  basicBlock : Bool
  endSequence : Bool
  prologueEnd : Bool
  epilogueBegin : Bool
  isa : UInt64
  discriminator : UInt64
deriving DecidableEq, Repr

namespace LineRegisters

def initial (header : LineHeader) : LineRegisters where
  address := 0
  operationIndex := 0
  file := 1
  line := 1
  column := 0
  isStatement := header.defaultIsStatement
  basicBlock := false
  endSequence := false
  prologueEnd := false
  epilogueBegin := false
  isa := 0
  discriminator := 0

/-- Registers that hold for one row only return to their initial values. -/
def afterRow (registers : LineRegisters) : LineRegisters :=
  { registers with
    basicBlock := false, prologueEnd := false, epilogueBegin := false, discriminator := 0 }

/-- Moves on by a number of operations. With one operation to an instruction the index stays. -/
def advance (header : LineHeader) (operations : UInt64) (registers : LineRegisters) :
    LineRegisters :=
  let length := header.minimumInstructionLength.toUInt64
  let maximum := header.maximumOperations.toUInt64
  if maximum = 1 then
    { registers with address := registers.address + length * operations }
  else
    let total := registers.operationIndex + operations
    { registers with
      address := registers.address + length * (total / maximum)
      operationIndex := total % maximum }

def advanceLine (delta : Int64) (registers : LineRegisters) : LineRegisters :=
  { registers with line := registers.line + delta.toUInt64 }

/-- The operations that a special opcode, less the first one, moves on by. -/
def specialOperations (header : LineHeader) (adjusted : UInt8) : UInt64 :=
  (adjusted / header.lineRange).toUInt64

/-- The lines that a special opcode, less the first one, moves on by. -/
def specialLines (header : LineHeader) (adjusted : UInt8) : Int64 :=
  header.lineBase.toInt64 + (adjusted % header.lineRange).toUInt64.toInt64

end LineRegisters

structure LineState where
  registers : LineRegisters
  files : Array FileEntry
  rows : Array LineRegisters
deriving DecidableEq, Repr

namespace LineState

def initial (header : LineHeader) : LineState where
  registers := .initial header
  files := header.files.toArray
  rows := #[]

def update (state : LineState) (change : LineRegisters → LineRegisters) : LineState :=
  { state with registers := change state.registers }

def emit (state : LineState) : LineState :=
  { state with rows := state.rows.push state.registers }

def execute (header : LineHeader) (state : LineState) : LineInstruction → LineState
  | .special adjusted =>
      let moved := state.update fun registers =>
        (registers.advance header (LineRegisters.specialOperations header adjusted)).advanceLine
          (LineRegisters.specialLines header adjusted)
      moved.emit.update .afterRow
  | .copy => state.emit.update .afterRow
  | .advanceAddress operations => state.update (.advance header operations)
  | .advanceLine delta => state.update (.advanceLine delta)
  | .setFile file => state.update ({ · with file })
  | .setColumn column => state.update ({ · with column })
  | .negateStatement =>
      state.update fun registers => { registers with isStatement := !registers.isStatement }
  | .setBasicBlock => state.update ({ · with basicBlock := true })
  | .addConstant =>
      state.update (.advance header
        (LineRegisters.specialOperations header (255 - header.opcodeBase)))
  | .fixedAdvance delta =>
      state.update fun registers =>
        { registers with address := registers.address + delta.toUInt64, operationIndex := 0 }
  | .setPrologueEnd => state.update ({ · with prologueEnd := true })
  | .setEpilogueBegin => state.update ({ · with epilogueBegin := true })
  | .setInstructionSet isa => state.update ({ · with isa })
  | .endSequence =>
      ((state.update ({ · with endSequence := true })).emit).update fun _ => .initial header
  | .setAddress address => state.update ({ · with address, operationIndex := 0 })
  | .defineFile file => { state with files := state.files.push file }
  | .setDiscriminator discriminator => state.update ({ · with discriminator })
  | .skip => state

def run (header : LineHeader) (state : LineState) (program : List LineInstruction) : LineState :=
  program.foldl (execute header) state

end LineState

end Symbolication
