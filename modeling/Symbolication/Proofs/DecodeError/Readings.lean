import Symbolication.DebugImage
import Symbolication.Proofs.Decoder.Confinement

/-!
The readings of every format are confined: abbreviations, entries, unit headers, line programs,
address range sets and range lists complain about the span they start in. Only an entry's text can
be at fault in another section, where it is kept.
-/

namespace Symbolication

open Symbolication.Span (Confines)

variable {span : Span} {elsewhere : DecodeError → Prop}

namespace Abbreviation

theorem attributeDeclarations_guards : span.Guards elsewhere attributeDeclarations :=
  Confines.unsigned.itemsUntil fun _ _ => Confines.unsigned.andThen fun _ => .pure trivial

theorem decoder_guards (code : UInt64) : span.Guards elsewhere (decoder code) :=
  Confines.unsigned.andThen fun _ => Confines.byte.andThen fun _ =>
    attributeDeclarations_guards.andThen fun _ => .pure trivial

end Abbreviation

theorem AbbreviationTable.decoder_guards (inTables : span.source = .abbreviations) :
    span.Guards elsewhere decoder := by
  apply (Confines.located .unsigned).roundsWhileLeft
  rintro table ⟨start, code⟩ ⟨low, high⟩
  unfold declare
  dsimp only
  split
  · exact .pure trivial
  · apply (Abbreviation.decoder_guards code).andThen
    intro declaration
    split
    · exact .failAt low high inTables
    · exact .pure trivial

/-- A text that cannot be read in the section of strings is a failure that belongs elsewhere. -/
def AttributeContext.Blames (context : AttributeContext) (elsewhere : DecodeError → Prop) : Prop :=
  ∀ offset error, Decoder.text.runAt .strings context.strings offset = .error error →
    elsewhere error

section Entries

variable {context : AttributeContext} {start : Nat}

theorem counted_guards {count : Decoder Nat} (guards : span.Guards elsewhere count) :
    span.Guards elsewhere (counted count) :=
  guards.andThen fun _ => .take _

theorem sectionReferenceOffset_guards (context : StatedContext) :
    span.Guards elsewhere (sectionReferenceOffset context) := by
  unfold sectionReferenceOffset
  split
  · exact .address _
  · exact Confines.uint32.map _

theorem AttributeValue.decoder_guards (inEntries : span.source = .info)
    (blames : context.Blames elsewhere) (low : span.low ≤ start) (high : start ≤ span.high)
    (form : Form) : span.Guards elsewhere (decoder context start form) := by
  cases form with
  | address => exact (Confines.address _).map _
  | block1 => exact (counted_guards (.unsignedBytes 1)).map _
  | block2 => exact (counted_guards (.unsignedBytes 2)).map _
  | block4 => exact (counted_guards (Confines.uint32.andThen fun _ => .count _ _)).map _
  | block => exact (counted_guards .length).map _
  | data1 => exact (Confines.take 1).map _
  | data2 => exact (Confines.take 2).map _
  | data4 => exact (Confines.take 4).map _
  | data8 => exact (Confines.take 8).map _
  | signedData => exact Confines.signed.map _
  | unsignedData => exact Confines.unsigned.map _
  | inlineString => exact Confines.text.map _
  | stringOffset =>
      apply (Confines.unsignedBytes 4).andThen
      intro offset
      exact (Confines.lift (fun _ _ => trivial) fun error failed =>
        .inr (blames offset error failed)).map _
  | flag => exact Confines.byte.map _
  | flagPresent => exact .pure trivial
  | reference1 => exact (Confines.unsignedBytes 1).map _
  | reference2 => exact (Confines.unsignedBytes 2).map _
  | reference4 => exact (Confines.unsignedBytes 4).map _
  | reference8 => exact Confines.uint64.andThen fun _ => (Confines.count _ _).map _
  | unsignedReference => exact Confines.length.map _
  | sectionReference =>
      exact (sectionReferenceOffset_guards _).andThen fun _ => (Confines.count _ _).map _
  | sectionOffset => exact Confines.uint32.map _
  | expression => exact (counted_guards .length).map _
  | signature => exact Confines.uint64.map _
  | indirect => exact .failAt low high inEntries

theorem Attribute.decoder_guards (inEntries : span.source = .info)
    (blames : context.Blames elsewhere) (declaration : AttributeDeclaration) :
    span.Guards elsewhere (decoder context declaration) := by
  apply Confines.offset.bind
  rintro start ⟨low, high⟩
  have form : span.Guards elsewhere (effectiveForm declaration.form) := by
    unfold effectiveForm
    split
    · exact Confines.unsigned.map _
    · exact .pure trivial
  apply form.andThen
  intro code
  split
  · exact .failAt low high inEntries
  · exact (AttributeValue.decoder_guards inEntries blames low high _).andThen fun _ => .pure trivial

theorem EntryBody.decoder_guards (inEntries : span.source = .info)
    (blames : context.Blames elsewhere) (abbreviations : AbbreviationTable) (first : Nat)
    (low : span.low ≤ start) (high : start ≤ span.high) (code : UInt64) :
    span.Guards elsewhere (decoder abbreviations context first start code) := by
  unfold decoder
  split
  · exact .pure trivial
  · split
    · exact .failAt low high inEntries
    · exact (Confines.mapM (Attribute.decoder_guards inEntries blames) _).andThen fun _ =>
        .pure trivial

theorem EntryTable.decoder_guards (inEntries : span.source = .info)
    (blames : context.Blames elsewhere) (abbreviations : AbbreviationTable) :
    span.Guards elsewhere (decoder abbreviations context) := by
  apply Confines.map
  apply Confines.offset.bind
  intro first _
  apply (Confines.located .unsigned).itemsWhileLeft
  rintro ⟨start, code⟩ ⟨low, high⟩
  exact (EntryBody.decoder_guards inEntries blames abbreviations first low high code).map some

end Entries

theorem UnitHeader.decoder_guards : span.Guards elsewhere decoder := by
  apply Confines.offset.bind
  rintro start ⟨low, high⟩
  apply Confines.initialLength.andThen
  intro unitLength
  apply (Confines.version low high).andThen
  intro version
  apply Confines.uint32.andThen
  intro abbreviationOffset
  apply Confines.addressWidth.andThen
  intro addressWidth
  apply Confines.offset_left
  intro position left after bounded
  dsimp only
  split
  · refine .failAt ?_ ?_ trivial
    · simp only [stop, totalSize]
      omega
    · omega
  · exact .pure trivial

section Lines

theorem FileEntry.decoder_guards (name : String) : span.Guards elsewhere (decoder name) :=
  Confines.unsigned.andThen fun _ => Confines.unsigned.andThen fun _ =>
    Confines.unsigned.andThen fun _ => .pure trivial

namespace LineHeader

theorem directoryNames_guards : span.Guards elsewhere directoryNames :=
  Confines.terminated.itemsUntil fun _ _ => .pure trivial

theorem fileEntries_guards : span.Guards elsewhere fileEntries := by
  apply Confines.terminated.itemsUntil
  intro name _
  split
  · exact .pure trivial
  · exact (FileEntry.decoder_guards _).map some

variable {start : Nat}

theorem checkNonzero_guards (inLines : span.source = .lines) (low : span.low ≤ start)
    (high : start ≤ span.high) (lineRange opcodeBase maximumOperations : UInt8) :
    span.Guards elsewhere (checkNonzero start lineRange opcodeBase maximumOperations) := by
  unfold checkNonzero
  split
  · exact .failAt low high inLines
  · split
    · exact .failAt low high inLines
    · split
      · exact .failAt low high inLines
      · exact .pure trivial

theorem fields_confines (inLines : span.source = .lines) (low : span.low ≤ start)
    (high : start ≤ span.high) (unitLength : Nat) (version : Version) (headerLength : Nat) :
    span.Confines elsewhere (fun header => header.offset = start)
      (fields start unitLength version headerLength) := by
  apply Confines.byte.andThen
  intro minimumInstructionLength
  have operations : ∀ {α : Type} {ensures : α → Prop} {continuation : UInt8 → Decoder α},
      (∀ count, span.Confines elsewhere ensures (continuation count)) →
        span.Confines elsewhere ensures
          (if version = .four then Decoder.byte >>= continuation else pure 1 >>= continuation) := by
    intro α ensures continuation confinesNext
    split
    · exact Confines.byte.andThen confinesNext
    · exact confinesNext 1
  apply operations
  intro maximumOperations
  apply Confines.byte.andThen
  intro defaultIsStatement
  apply Confines.signedByte.andThen
  intro lineBase
  apply Confines.byte.andThen
  intro lineRange
  apply Confines.byte.andThen
  intro opcodeBase
  apply (checkNonzero_guards inLines low high _ _ _).andThen
  intro _
  apply (Confines.take _).andThen
  intro operandCounts
  apply directoryNames_guards.andThen
  intro directories
  apply fileEntries_guards.andThen
  intro files
  exact .pure rfl

/-- The header names the place where it begins, and its opcodes lie in the span. -/
def Placed (span : Span) (result : LineHeader × Cursor) : Prop :=
  span.low ≤ result.1.offset ∧ result.1.offset ≤ span.high ∧ span.Holds result.2

theorem contents_confines (inLines : span.source = .lines) (low : span.low ≤ start)
    (high : start ≤ span.high) (unitLength : Nat) :
    span.Confines elsewhere (Placed span) (contents start unitLength) := by
  apply (Confines.version low high).andThen
  intro version
  apply Confines.uint32.andThen
  intro headerLength
  apply (Confines.window _).bind
  intro fieldWindow fieldsHeld
  apply Confines.cursor.bind
  intro program held
  apply (Confines.within fieldsHeld (fields_confines inLines low high _ _ _)).bind
  intro header place
  exact .pure ⟨by rwa [place], by rwa [place], held⟩

theorem decoder_confines (inLines : span.source = .lines) :
    span.Confines elsewhere (Placed span) decoder := by
  apply (Confines.located .initialLength).bind
  rintro ⟨start, unitLength⟩ ⟨low, high⟩
  apply (Confines.window _).bind
  intro window held
  exact .within held (contents_confines inLines low high _)

end LineHeader

namespace LineInstruction

theorem skipOperands_guards (count : Nat) : span.Guards elsewhere (skipOperands count) := by
  induction count with
  | zero => exact .pure trivial
  | succ count induction => exact Confines.unsigned.andThen fun _ => induction

theorem standard_guards (header : LineHeader) (opcode : UInt8) :
    span.Guards elsewhere (standard header opcode) := by
  unfold standard
  split
  · exact .pure trivial
  · exact Confines.unsigned.map _
  · exact Confines.signed.map _
  · exact Confines.unsigned.map _
  · exact Confines.unsigned.map _
  · exact .pure trivial
  · exact .pure trivial
  · exact .pure trivial
  · exact Confines.uint16.map _
  · exact .pure trivial
  · exact .pure trivial
  · exact Confines.unsigned.map _
  · exact (skipOperands_guards _).andThen fun _ => .pure trivial

theorem extended_guards (addressSize : UInt8) : span.Guards elsewhere (extended addressSize) := by
  apply Confines.byte.andThen
  intro opcode
  split
  · exact .pure trivial
  · exact (Confines.address _).map _
  · exact Confines.text.andThen fun _ => (FileEntry.decoder_guards _).map _
  · exact Confines.unsigned.map _
  · exact .pure trivial

theorem decoder_guards (header : LineHeader) (addressSize opcode : UInt8) :
    span.Guards elsewhere (decoder header addressSize opcode) := by
  unfold decoder
  split
  · exact .pure trivial
  · split
    · apply Confines.length.andThen
      intro length
      split
      · exact .pure trivial
      · exact (Confines.window _).bind fun _ held => .within held (extended_guards addressSize)
    · exact standard_guards header opcode

theorem program_guards (header : LineHeader) (addressSize : UInt8) :
    span.Guards elsewhere (program header addressSize) :=
  Confines.byte.itemsWhileLeft fun opcode _ => (decoder_guards header addressSize opcode).map some

end LineInstruction

theorem LineTable.ofProgram_failure {header : LineHeader} {program : Cursor} {addressSize : UInt8}
    {error : DecodeError} (inLines : span.source = .lines)
    (placed : LineHeader.Placed span (header, program))
    (outcome : ofProgram header program addressSize = .error error) :
    span.Explains error ∨ elsewhere error := by
  obtain ⟨low, high, held⟩ := placed
  unfold ofProgram at outcome
  cases run : (LineInstruction.program header addressSize).run program with
  | error error' =>
      rw [run] at outcome
      cases outcome
      exact (LineInstruction.program_guards header addressSize).failure held run
  | ok result =>
      rw [run] at outcome
      dsimp only [Bind.bind, Except.bind] at outcome
      split at outcome
      · cases outcome
      · cases outcome
        exact .inl ⟨inLines.symm, low, high, .inl inLines⟩

end Lines

namespace RangeSet

theorem tupleHead_guards (addressWidth : Width) (segmentWidth : Option Width) :
    span.Guards elsewhere (tupleHead addressWidth segmentWidth) := by
  have segment : span.Guards elsewhere (segmentWidth.elim (pure 0) Decoder.word) := by
    cases segmentWidth with
    | none => exact .pure trivial
    | some width => exact .word width
  exact segment.andThen fun _ => (Confines.word _).andThen fun _ => .pure trivial

theorem contents_guards {start : Nat} (low : span.low ≤ start) (high : start ≤ span.high) :
    span.Guards elsewhere (contents start) := by
  apply Confines.uint16.andThen
  intro number
  split
  · exact .failAt low high trivial
  · apply Confines.uint32.andThen
    intro unitOffset
    apply Confines.addressWidth.andThen
    intro addressWidth
    apply Confines.segmentWidth.andThen
    intro segmentWidth
    apply (Confines.skip _).andThen
    intro _
    have tuples : span.Guards elsewhere (tuples addressWidth segmentWidth) :=
      (tupleHead_guards addressWidth segmentWidth).itemsWhileLeft fun _ _ =>
        (Confines.word _).andThen fun _ => .pure trivial
    exact tuples.andThen fun _ => .pure trivial

end RangeSet

theorem AddressIndex.decoder_guards : span.Guards elsewhere decoder := by
  apply (Confines.located .initialLength).itemsWhileLeft
  rintro ⟨start, length⟩ ⟨low, high⟩
  apply (Confines.window _).bind
  intro window held
  exact (Confines.within held (RangeSet.contents_guards low high)).andThen fun _ => .pure trivial

theorem RangeList.pairs_guards (width : Width) : span.Guards elsewhere (pairs width) :=
  (Confines.word width).itemsUntil fun _ _ => (Confines.word width).andThen fun _ => .pure trivial

end Symbolication
