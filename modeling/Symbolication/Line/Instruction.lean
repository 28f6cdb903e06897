import Symbolication.Line.Header

/-!
The instructions of a line program. Reading an instruction depends on the header alone, so a program
is first read as a list and then run.
-/

namespace Symbolication

inductive LineInstruction where
  /-- A special opcode, less the first one. -/
  | special (adjusted : UInt8)
  | copy
  | advanceAddress (operations : UInt64)
  | advanceLine (delta : Int64)
  | setFile (file : UInt64)
  | setColumn (column : UInt64)
  | negateStatement
  | setBasicBlock
  /-- The address step of the last special opcode. -/
  | addConstant
  | fixedAdvance (delta : UInt16)
  | setPrologueEnd
  | setEpilogueBegin
  | setInstructionSet (isa : UInt64)
  | endSequence
  | setAddress (address : UInt64)
  | defineFile (file : FileEntry)
  | setDiscriminator (discriminator : UInt64)
  /-- An opcode without a meaning, or none at all. -/
  | skip
deriving DecidableEq, Repr

namespace LineInstruction

def skipOperands : Nat → Decoder Unit
  | 0 => pure ()
  | count + 1 => do
      let _ ← Decoder.unsigned
      skipOperands count

/-- A standard opcode below the first special one. One without a meaning takes as many operands as
the header says. -/
def standard (header : LineHeader) (opcode : UInt8) : Decoder LineInstruction :=
  match opcode.toNat with
  | 1 => pure .copy
  | 2 => .advanceAddress <$> Decoder.unsigned
  | 3 => .advanceLine <$> Decoder.signed
  | 4 => .setFile <$> Decoder.unsigned
  | 5 => .setColumn <$> Decoder.unsigned
  | 6 => pure .negateStatement
  | 7 => pure .setBasicBlock
  | 8 => pure .addConstant
  | 9 => .fixedAdvance <$> Decoder.uint16
  | 10 => pure .setPrologueEnd
  | 11 => pure .setEpilogueBegin
  | 12 => .setInstructionSet <$> Decoder.unsigned
  | number => do
      skipOperands ((header.operandCounts[number - 1]?).elim 0 UInt8.toNat)
      pure .skip

/-- An extended opcode in its window. Operands that are not used are passed over. -/
def extended (addressSize : UInt8) : Decoder LineInstruction := do
  let opcode ← Decoder.byte
  match opcode.toNat with
  | 1 => pure .endSequence
  | 2 => .setAddress <$> Decoder.address addressSize
  | 3 => do
      let name ← Decoder.text
      .defineFile <$> FileEntry.decoder name
  | 4 => .setDiscriminator <$> Decoder.unsigned
  | _ => pure .skip

/-- An extended opcode behind its mark, which gives its length first. One without bytes does
nothing. -/
def extendedWithLength (addressSize : UInt8) : Decoder LineInstruction := do
  let length ← Decoder.length
  if length = 0 then pure .skip
  else do
    let window ← Decoder.window length
    Decoder.within window (extended addressSize)

def decoder (header : LineHeader) (addressSize : UInt8) (opcode : UInt8) :
    Decoder LineInstruction :=
  if header.opcodeBase ≤ opcode then pure (.special (opcode - header.opcodeBase))
  else if opcode = 0 then extendedWithLength addressSize
  else standard header opcode

def program (header : LineHeader) (addressSize : UInt8) : Decoder (List LineInstruction) :=
  .itemsWhileLeft .byte Decoder.byte_consumes fun opcode =>
    some <$> decoder header addressSize opcode

end LineInstruction

end Symbolication
