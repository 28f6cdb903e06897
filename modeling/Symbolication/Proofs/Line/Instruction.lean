import Symbolication.Line.Instruction
import Symbolication.Proofs.Line.Header

/-!
Line instructions as they are written. Which opcodes are standard ones is up to the header, so an
instruction can be written only where its opcode lies below the first special one.
-/

namespace Symbolication.LineInstruction

/-- An extended opcode with its operands, behind the mark and their length. -/
def encodeExtended (payload : Bytes) : Bytes :=
  [0] ++ (Leb128.encodeUnsigned payload.length ++ payload)

def encode (header : LineHeader) (width : Width) : LineInstruction → Bytes
  | special adjusted => [adjusted + header.opcodeBase]
  | copy => [1]
  | advanceAddress operations => [2] ++ Leb128.encodeUnsigned operations.toNat
  | advanceLine delta => [3] ++ Leb128.encodeSigned delta.toInt
  | setFile file => [4] ++ Leb128.encodeUnsigned file.toNat
  | setColumn column => [5] ++ Leb128.encodeUnsigned column.toNat
  | negateStatement => [6]
  | setBasicBlock => [7]
  | addConstant => [8]
  | fixedAdvance delta => [9] ++ Bytes.ofNumber 2 delta.toNat
  | setPrologueEnd => [10]
  | setEpilogueBegin => [11]
  | setInstructionSet isa => [12] ++ Leb128.encodeUnsigned isa.toNat
  | endSequence => encodeExtended [1]
  | setAddress address => encodeExtended ([2] ++ Bytes.ofNumber width.bytes address.toNat)
  | defineFile file => encodeExtended ([3] ++ file.encode)
  | setDiscriminator discriminator =>
      encodeExtended ([4] ++ Leb128.encodeUnsigned discriminator.toNat)
  | skip => encodeExtended []

/-- Whether the instruction has an opcode under the header and room for its operands. -/
def Writable (header : LineHeader) (width : Width) : LineInstruction → Prop
  | special adjusted => adjusted.toNat + header.opcodeBase.toNat < 256
  | copy => 1 < header.opcodeBase
  | advanceAddress _ => 2 < header.opcodeBase
  | advanceLine _ => 3 < header.opcodeBase
  | setFile _ => 4 < header.opcodeBase
  | setColumn _ => 5 < header.opcodeBase
  | negateStatement => 6 < header.opcodeBase
  | setBasicBlock => 7 < header.opcodeBase
  | addConstant => 8 < header.opcodeBase
  | fixedAdvance _ => 9 < header.opcodeBase
  | setPrologueEnd => 10 < header.opcodeBase
  | setEpilogueBegin => 11 < header.opcodeBase
  | setInstructionSet _ => 12 < header.opcodeBase
  | endSequence | skip | setDiscriminator _ => header.opcodeBase ≠ 0
  | setAddress address => header.opcodeBase ≠ 0 ∧ address.toNat < 256 ^ width.bytes
  | defineFile file =>
      header.opcodeBase ≠ 0 ∧ '\x00' ∉ file.name.toList ∧ file.encode.length + 1 < 2 ^ 64

variable {header : LineHeader} {size : UInt8} {cursor : Cursor} {bytes payload suffix : Bytes}
  {instruction : LineInstruction}

theorem standard_reads {opcode : UInt8} (below : opcode < header.opcodeBase) (nonzero : opcode ≠ 0)
    (reads : (standard header opcode).Reads (cursor.after [opcode] (bytes ++ suffix)) bytes suffix
      instruction) :
    (Decoder.byte >>= decoder header size).Reads cursor ([opcode] ++ bytes) suffix
      instruction := by
  apply (Decoder.byte_reads opcode).bind
  unfold decoder
  rw [if_neg (UInt8.not_le.mpr below), if_neg nonzero]
  exact reads

theorem extended_reads (based : header.opcodeBase ≠ 0) (short : payload.length < 2 ^ 64)
    (nonempty : payload ≠ [])
    (reads : ∀ window, (extended size).Reads window payload [] instruction) :
    (Decoder.byte >>= decoder header size).Reads cursor (encodeExtended payload) suffix
      instruction := by
  apply (Decoder.byte_reads 0).bind
  unfold decoder
  rw [if_neg (by simpa using based), if_pos rfl]
  apply (Decoder.length_reads short).bind
  rw [if_neg (mt List.length_eq_zero_iff.mp nonempty)]
  apply (Decoder.window_reads rfl).bind_last
  exact Decoder.within_reads ((reads _).run (List.append_nil _).symm)

theorem skip_reads (based : header.opcodeBase ≠ 0) :
    (Decoder.byte >>= decoder header size).Reads cursor (encodeExtended []) suffix .skip := by
  apply (Decoder.byte_reads 0).bind
  unfold decoder
  rw [if_neg (by simpa using based), if_pos rfl]
  exact (Decoder.length_reads (by decide)).bind (Decoder.pure_reads _)

/-- An instruction is read back from its bytes, whatever follows it. -/
theorem decoder_reads {width : Width} (instruction : LineInstruction)
    (writable : instruction.Writable header width) :
    (Decoder.byte >>= decoder header width.toUInt8).Reads cursor (instruction.encode header width)
      suffix instruction := by
  cases instruction with
  | special adjusted =>
      have special : header.opcodeBase ≤ adjusted + header.opcodeBase := by
        have sum := UInt8.toNat_add adjusted header.opcodeBase
        rw [UInt8.le_iff_toNat_le, sum, Nat.mod_eq_of_lt writable]
        exact Nat.le_add_left _ _
      apply (Decoder.byte_reads _).bind_last
      unfold decoder
      rw [if_pos special, UInt8.add_sub_cancel]
      exact Decoder.pure_reads _
  | copy => exact standard_reads writable (by decide) (Decoder.pure_reads _)
  | advanceAddress operations =>
      exact standard_reads writable (by decide) ((Decoder.unsigned_reads _).map _)
  | advanceLine delta => exact standard_reads writable (by decide) ((Decoder.signed_reads _).map _)
  | setFile file => exact standard_reads writable (by decide) ((Decoder.unsigned_reads _).map _)
  | setColumn column => exact standard_reads writable (by decide) ((Decoder.unsigned_reads _).map _)
  | negateStatement => exact standard_reads writable (by decide) (Decoder.pure_reads _)
  | setBasicBlock => exact standard_reads writable (by decide) (Decoder.pure_reads _)
  | addConstant => exact standard_reads writable (by decide) (Decoder.pure_reads _)
  | fixedAdvance delta => exact standard_reads writable (by decide) ((Decoder.uint16_reads _).map _)
  | setPrologueEnd => exact standard_reads writable (by decide) (Decoder.pure_reads _)
  | setEpilogueBegin => exact standard_reads writable (by decide) (Decoder.pure_reads _)
  | setInstructionSet isa =>
      exact standard_reads writable (by decide) ((Decoder.unsigned_reads _).map _)
  | endSequence =>
      apply extended_reads writable (by decide) (by decide)
      intro window
      exact (Decoder.byte_reads 1).bind_last (Decoder.pure_reads _)
  | setAddress address =>
      obtain ⟨based, fits⟩ := writable
      have short : ([2] ++ Bytes.ofNumber width.bytes address.toNat).length < 2 ^ 64 := by
        rw [List.length_append, Bytes.length_ofNumber]
        cases width <;> decide
      apply extended_reads based short (by simp)
      intro window
      exact (Decoder.byte_reads 2).bind ((Decoder.address_reads width fits).map _)
  | defineFile file =>
      obtain ⟨based, clean, short⟩ := writable
      apply extended_reads based (by simpa [Nat.add_comm] using short) (by simp)
      intro window
      exact (Decoder.byte_reads 3).bind ((Decoder.text_reads clean).bind (file.decoder_reads.map _))
  | setDiscriminator discriminator =>
      have groups := Leb128.length_encodeUnsigned_le 9 discriminator.toNat
        (Nat.lt_trans discriminator.toNat_lt (by decide))
      have short : ([4] ++ Leb128.encodeUnsigned discriminator.toNat).length < 2 ^ 64 := by
        rw [List.length_append, List.length_singleton]
        omega
      apply extended_reads writable short (by simp)
      intro window
      exact (Decoder.byte_reads 4).bind ((Decoder.unsigned_reads discriminator).map _)
  | skip => exact skip_reads writable

theorem encode_ne_nil (header : LineHeader) (width : Width) (instruction : LineInstruction) :
    instruction.encode header width ≠ [] := by
  cases instruction <;> simp [encode, encodeExtended]

theorem program_reads {width : Width} (instructions : List LineInstruction)
    (writable : ∀ instruction ∈ instructions, instruction.Writable header width) :
    (program header width.toUInt8).Reads cursor
      (instructions.flatMap (encode header width)) [] instructions := by
  rw [← List.append_nil (instructions.flatMap _)]
  apply Decoder.itemsWhileLeft_flatMap_reads (encode_ne_nil header width)
  · intro instruction member cursor behind
    rw [← map_bind]
    exact (instruction.decoder_reads (writable instruction member)).map some
  · intro cursor
    exact Decoder.itemIfLeft_finished

end Symbolication.LineInstruction
