import Symbolication.Line.Header
import Symbolication.Proofs.Decoder.Repetition

/-!
Line program headers as they are written, with the opcodes of the program behind them.
-/

namespace Symbolication

/-- A text that can be written in front of a zero byte and does not end a list of texts. -/
structure IsListedText (text : String) : Prop where
  clean : '\x00' ∉ text.toList
  nonempty : text ≠ ""

namespace IsListedText

instance (text : String) : Decidable (IsListedText text) :=
  decidable_of_iff ('\x00' ∉ text.toList ∧ text ≠ "")
    ⟨fun listed => ⟨listed.1, listed.2⟩, fun listed => ⟨listed.clean, listed.nonempty⟩⟩

variable {cursor : Cursor} {suffix : Bytes} {text : String}

theorem terminated_reads (listed : IsListedText text) :
    Decoder.terminated.Reads cursor (Utf8.encode text ++ [0]) suffix (Utf8.encode text) :=
  Decoder.terminated_reads (Utf8.zero_notMem_encode listed.clean)

theorem encode_ne_nil (listed : IsListedText text) : Utf8.encode text ≠ [] :=
  Utf8.encode_ne_nil listed.nonempty

end IsListedText

theorem Decoder.terminated_reads_end {cursor : Cursor} {suffix : Bytes} :
    Decoder.terminated.Reads cursor [0] suffix [] :=
  Decoder.terminated_reads List.not_mem_nil

namespace FileEntry

def encodeNumbers (file : FileEntry) : Bytes :=
  Leb128.encodeUnsigned file.directory.toNat ++
    (Leb128.encodeUnsigned file.modified.toNat ++ Leb128.encodeUnsigned file.size.toNat)

def encode (file : FileEntry) : Bytes := Utf8.encode file.name ++ [0] ++ file.encodeNumbers

theorem decoder_reads (file : FileEntry) {cursor : Cursor} {suffix : Bytes} :
    (FileEntry.decoder file.name).Reads cursor file.encodeNumbers suffix file :=
  (Decoder.unsigned_reads file.directory).bind ((Decoder.unsigned_reads file.modified).bind
    ((Decoder.unsigned_reads file.size).bind_last (Decoder.pure_reads file)))

end FileEntry

namespace LineHeader

def encodeDirectories (directories : List String) : Bytes :=
  directories.flatMap (fun directory => Utf8.encode directory ++ [0]) ++ [0]

def encodeFiles (files : List FileEntry) : Bytes := files.flatMap FileEntry.encode ++ [0]

variable {cursor : Cursor} {suffix : Bytes}

theorem directoryNames_reads {directories : List String}
    (listed : ∀ directory ∈ directories, IsListedText directory) :
    directoryNames.Reads cursor (encodeDirectories directories) suffix directories := by
  apply Decoder.itemsUntil_flatMap_reads
  · intro directory member cursor behind
    apply (listed directory member).terminated_reads.bind_last
    rw [if_neg (listed directory member).encode_ne_nil, Utf8.lossyText_encode]
    exact Decoder.pure_reads _
  · intro cursor
    exact Decoder.terminated_reads_end.bind_last (Decoder.pure_reads _)

theorem fileEntries_reads {files : List FileEntry}
    (listed : ∀ file ∈ files, IsListedText file.name) :
    fileEntries.Reads cursor (encodeFiles files) suffix files := by
  apply Decoder.itemsUntil_flatMap_reads
  · intro file member cursor behind
    apply (listed file member).terminated_reads.bind
    rw [if_neg (listed file member).encode_ne_nil, Utf8.lossyText_encode]
    exact file.decoder_reads.map some
  · intro cursor
    exact Decoder.terminated_reads_end.bind_last (Decoder.pure_reads _)

/-- The operations of an instruction, which only version 4 writes down. -/
def encodeMaximumOperations (header : LineHeader) : Bytes :=
  if header.version = .four then [header.maximumOperations] else []

def encodeFields (header : LineHeader) : Bytes :=
  [header.minimumInstructionLength] ++
    (header.encodeMaximumOperations ++
      ([if header.defaultIsStatement then 1 else 0] ++
        ([header.lineBase.toUInt8] ++
          ([header.lineRange] ++
            ([header.opcodeBase] ++
              (header.operandCounts ++
                (encodeDirectories header.directories ++ encodeFiles header.files)))))))

/-- Whether the fields can be written and make sense. -/
structure WellFormed (header : LineHeader) : Prop where
  maximumOperations : header.maximumOperations ≠ 0
  singleOperation : header.version ≠ .four → header.maximumOperations = 1
  lineRange : header.lineRange ≠ 0
  opcodeBase : header.opcodeBase ≠ 0
  operandCounts : header.operandCounts.length = header.opcodeBase.toNat - 1
  directories : ∀ directory ∈ header.directories, IsListedText directory
  files : ∀ file ∈ header.files, IsListedText file.name

theorem maximumOperations_reads_bind {header : LineHeader} (wellFormed : header.WellFormed)
    {α : Type} {continuation : UInt8 → Decoder α} {second : Bytes} {result : α}
    (readsNext : ∀ cursor, (continuation header.maximumOperations).Reads cursor second suffix
      result) :
    (if header.version = .four then Decoder.byte >>= continuation
      else pure 1 >>= continuation).Reads cursor
      (header.encodeMaximumOperations ++ second) suffix result := by
  unfold encodeMaximumOperations
  -- Only version 4 has a byte here, the older ones mean one operation.
  by_cases fourth : header.version = .four
  · rw [if_pos fourth, if_pos fourth]
    exact (Decoder.byte_reads _).bind (readsNext _)
  · have single := wellFormed.singleOperation fourth
    rw [if_neg fourth, if_neg fourth, List.nil_append, pure_bind, ← single]
    exact readsNext cursor

theorem checkNonzero_reads {header : LineHeader} (wellFormed : header.WellFormed) (start : Nat) :
    (checkNonzero start header.lineRange header.opcodeBase header.maximumOperations).Reads cursor
      [] suffix () := by
  unfold checkNonzero
  rw [if_neg wellFormed.lineRange, if_neg wellFormed.opcodeBase,
    if_neg wellFormed.maximumOperations]
  exact Decoder.pure_reads ()

theorem fields_reads {header : LineHeader} (wellFormed : header.WellFormed) :
    (fields header.offset header.unitLength header.version header.headerLength).Reads cursor
      header.encodeFields suffix header := by
  have statement : decide ((if header.defaultIsStatement then 1 else 0 : UInt8) ≠ 0) =
      header.defaultIsStatement := by
    cases header.defaultIsStatement <;> rfl
  apply (Decoder.byte_reads header.minimumInstructionLength).bind
  apply maximumOperations_reads_bind wellFormed
  intro cursor
  apply (Decoder.byte_reads _).bind
  apply (Decoder.signedByte_reads header.lineBase).bind
  apply (Decoder.byte_reads header.lineRange).bind
  apply (Decoder.byte_reads header.opcodeBase).bind
  apply (checkNonzero_reads wellFormed header.offset).bind_nil
  apply (Decoder.take_reads wellFormed.operandCounts).bind
  apply (directoryNames_reads wellFormed.directories).bind
  apply (fileEntries_reads wellFormed.files).bind_last
  rw [statement]
  exact Decoder.pure_reads header

/-- What the header length covers: the fields, and bytes behind them that carry no meaning. -/
def encodeCovered (header : LineHeader) (extra : Bytes) : Bytes := header.encodeFields ++ extra

def encodeHead (header : LineHeader) (extra : Bytes) : Bytes :=
  Bytes.ofNumber 2 header.version.number.toNat ++
    (Bytes.ofNumber 4 (header.encodeCovered extra).length ++ header.encodeCovered extra)

def encode (header : LineHeader) (extra program : Bytes) : Bytes :=
  Bytes.ofNumber 4 (header.encodeHead extra ++ program).length ++
    (header.encodeHead extra ++ program)

/-- The header with the lengths that writing gives it. -/
def measured (header : LineHeader) (extra program : Bytes) : LineHeader :=
  { header with
    unitLength := (header.encodeHead extra ++ program).length
    headerLength := (header.encodeCovered extra).length }

theorem measured_wellFormed {header : LineHeader} (wellFormed : header.WellFormed)
    (extra program : Bytes) : (header.measured extra program).WellFormed :=
  ⟨wellFormed.maximumOperations, wellFormed.singleOperation, wellFormed.lineRange,
    wellFormed.opcodeBase, wellFormed.operandCounts, wellFormed.directories, wellFormed.files⟩

theorem contents_reads {header : LineHeader} (wellFormed : header.WellFormed)
    {extra program : Bytes} (short : (header.encodeCovered extra).length < 2 ^ 32) :
    (contents header.offset (header.encodeHead extra ++ program).length).Reads cursor
      (header.encodeHead extra) program
      (header.measured extra program, cursor.after (header.encodeHead extra) program) := by
  have number : (UInt32.ofNat (header.encodeCovered extra).length).toNat =
      (header.encodeCovered extra).length := UInt32.toNat_ofNat_of_lt' short
  have fieldsRead : ∀ window : Cursor, window.rest = header.encodeFields ++ extra →
      (fields header.offset (header.encodeHead extra ++ program).length header.version
        (header.encodeCovered extra).length).run window =
          .ok (header.measured extra program, window.after header.encodeFields extra) :=
    fun _ => (fields_reads (measured_wellFormed wellFormed extra program)).run
  apply (Decoder.version_reads header.offset header.version).bind
  apply (Decoder.uint32_ofNat_reads short).bind
  rw [number]
  apply (Decoder.window_reads rfl).bind_last
  apply Decoder.cursor_reads.bind_nil
  apply (Decoder.within_reads (fieldsRead _ rfl)).bind_nil
  simp only [Cursor.after_after]
  exact Decoder.pure_reads _

/-- The header is read back, and the opcodes are what is left of the window. -/
theorem decoder_reads {header : LineHeader} (wellFormed : header.WellFormed)
    {extra program : Bytes} (short : (header.encodeHead extra ++ program).length < 0xfffffff0)
    (place : cursor.offset = header.offset) :
    ∃ opcodes : Cursor, opcodes.rest = program ∧
      LineHeader.decoder.Reads cursor (header.encode extra program) suffix
        (header.measured extra program, opcodes) := by
  have covered : (header.encodeCovered extra).length < 2 ^ 32 := by
    unfold encodeHead at short
    simp only [List.length_append] at short ⊢
    omega
  let contentsWindow := (cursor.after (Bytes.ofNumber 4 (header.encodeHead extra ++ program).length)
    (header.encodeHead extra ++ program ++ suffix)).windowOver (header.encodeHead extra ++ program)
  refine ⟨contentsWindow.after (header.encodeHead extra) program, rfl, ?_⟩
  apply (Decoder.located_reads (Decoder.initialLength_reads short)).bind
  apply (Decoder.window_reads rfl).bind_last
  rw [place]
  exact Decoder.within_reads ((contents_reads wellFormed covered).run rfl)

end LineHeader

end Symbolication
