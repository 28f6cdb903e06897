import Symbolication.ObjectFile
import Symbolication.Proofs.Encoding.LittleEndian

/-!
The records of an object file as they are written: numbers of fixed widths, one after the other.
A number is read back from its place, which is the width of the numbers in front of it.
-/

namespace Symbolication

/-- A number of a record and how many bytes it takes. -/
structure RecordNumber where
  width : Nat
  value : Nat
deriving DecidableEq, Repr

namespace RecordNumber

def encode (number : RecordNumber) : Bytes := Bytes.ofNumber number.width number.value

def encodeAll (numbers : List RecordNumber) : Bytes := numbers.flatMap encode

def totalWidth : List RecordNumber → Nat
  | [] => 0
  | number :: numbers => totalWidth numbers + number.width

@[simp] theorem length_encodeAll (numbers : List RecordNumber) :
    (encodeAll numbers).length = totalWidth numbers := by
  unfold encodeAll
  induction numbers with
  | nil => rfl
  | cons number numbers induction =>
      rw [List.flatMap_cons, List.length_append, induction, encode, Bytes.length_ofNumber,
        totalWidth, Nat.add_comm]

theorem recordField_encodeAll (numbers : List RecordNumber) (index : Nat) {width value : Nat}
    (found : numbers[index]? = some { width, value }) (fits : value < 256 ^ width) :
    recordField (encodeAll numbers) (totalWidth (numbers.take index)) width = value := by
  obtain ⟨inside, here⟩ := List.getElem?_eq_some_iff.mp found
  have split : encodeAll numbers = encodeAll (numbers.take index) ++
      (Bytes.ofNumber width value ++ encodeAll (numbers.drop (index + 1))) := by
    have number : Bytes.ofNumber width value = encode { width, value } := rfl
    unfold encodeAll
    rw [number, ← here, ← List.flatMap_cons, ← List.flatMap_append,
      ← List.drop_eq_getElem_cons inside, List.take_append_drop]
  unfold recordField
  rw [split, ← length_encodeAll, List.drop_left, List.take_left' (Bytes.length_ofNumber _ _),
    Bytes.littleEndian_ofNumber fits]

end RecordNumber

/-- A section header as it is written, with the numbers that no reading of sections looks at. -/
structure SectionRecord where
  header : SectionHeader
  address : UInt64
  information : UInt32
  alignment : UInt64
  entrySize : UInt64
deriving DecidableEq, Repr

namespace SectionHeader

/-- Whether every number has room where it is written. -/
structure Fits (header : SectionHeader) : Prop where
  nameOffset : header.nameOffset < 2 ^ 32
  kind : header.kind < 2 ^ 32
  flags : header.flags < 2 ^ 64
  offset : header.offset < 2 ^ 64
  size : header.size < 2 ^ 64
  link : header.link < 2 ^ 32

end SectionHeader

namespace SectionRecord

def numbers (record : SectionRecord) : List RecordNumber := [
  { width := 4, value := record.header.nameOffset },
  { width := 4, value := record.header.kind },
  { width := 8, value := record.header.flags },
  { width := 8, value := record.address.toNat },
  { width := 8, value := record.header.offset },
  { width := 8, value := record.header.size },
  { width := 4, value := record.header.link },
  { width := 4, value := record.information.toNat },
  { width := 8, value := record.alignment.toNat },
  { width := 8, value := record.entrySize.toNat }]

def encode (record : SectionRecord) : Bytes := RecordNumber.encodeAll record.numbers

theorem length_encode (record : SectionRecord) : record.encode.length = SectionHeader.recordSize :=
  RecordNumber.length_encodeAll _

theorem ofRecord_encode {record : SectionRecord} (fits : record.header.Fits) :
    SectionHeader.ofRecord record.encode = record.header := by
  have field := RecordNumber.recordField_encodeAll record.numbers
  have nameOffset : recordField record.encode 0 4 = record.header.nameOffset :=
    field 0 rfl fits.nameOffset
  have kind : recordField record.encode 4 4 = record.header.kind := field 1 rfl fits.kind
  have flags : recordField record.encode 8 8 = record.header.flags := field 2 rfl fits.flags
  have offset : recordField record.encode 24 8 = record.header.offset := field 4 rfl fits.offset
  have size : recordField record.encode 32 8 = record.header.size := field 5 rfl fits.size
  have link : recordField record.encode 40 4 = record.header.link := field 6 rfl fits.link
  unfold SectionHeader.ofRecord
  rw [nameOffset, kind, flags, offset, size, link]

theorem length_flatMap_encode (records : List SectionRecord) :
    (records.flatMap encode).length = records.length * SectionHeader.recordSize := by
  induction records with
  | nil => rfl
  | cons record records induction =>
      rw [List.flatMap_cons, List.length_append, induction, length_encode, List.length_cons,
        Nat.succ_mul, Nat.add_comm]

theorem ofTable_encode {records : List SectionRecord}
    (fits : ∀ record ∈ records, record.header.Fits) :
    SectionHeader.ofTable records.length (records.flatMap encode) = records.map header := by
  induction records with
  | nil => rfl
  | cons record records induction =>
      have ⟨first, others⟩ := List.forall_mem_cons.mp fits
      rw [List.flatMap_cons, List.length_cons, SectionHeader.ofTable,
        List.take_left' record.length_encode, List.drop_left' record.length_encode,
        ofRecord_encode first, induction others, List.map_cons]

end SectionRecord

/-- The header of a file as it is written, with the numbers that no reading looks at. -/
structure ObjectRecord where
  header : ObjectHeader
  identVersion : UInt8
  system : UInt8
  systemVersion : UInt64
  version : UInt32
  programOffset : UInt64
  headerSize : UInt16
  programEntrySize : UInt16
  programCount : UInt16
deriving DecidableEq, Repr

namespace ObjectHeader

structure Fits (header : ObjectHeader) : Prop where
  kind : header.kind < 2 ^ 16
  machine : header.machine < 2 ^ 16
  entryPoint : header.entryPoint < 2 ^ 64
  tableOffset : header.tableOffset < 2 ^ 64
  flags : header.flags < 2 ^ 32
  tableEntrySize : header.tableEntrySize < 2 ^ 16
  tableCount : header.tableCount < 2 ^ 16
  namesIndex : header.namesIndex < 2 ^ 16

end ObjectHeader

namespace ObjectRecord

def numbers (record : ObjectRecord) : List RecordNumber := [
  { width := 4, value := 0x464c457f },
  { width := 1, value := 2 },
  { width := 1, value := 1 },
  { width := 1, value := record.identVersion.toNat },
  { width := 1, value := record.system.toNat },
  { width := 8, value := record.systemVersion.toNat },
  { width := 2, value := record.header.kind },
  { width := 2, value := record.header.machine },
  { width := 4, value := record.version.toNat },
  { width := 8, value := record.header.entryPoint },
  { width := 8, value := record.programOffset.toNat },
  { width := 8, value := record.header.tableOffset },
  { width := 4, value := record.header.flags },
  { width := 2, value := record.headerSize.toNat },
  { width := 2, value := record.programEntrySize.toNat },
  { width := 2, value := record.programCount.toNat },
  { width := 2, value := record.header.tableEntrySize },
  { width := 2, value := record.header.tableCount },
  { width := 2, value := record.header.namesIndex }]

def encode (record : ObjectRecord) : Bytes := RecordNumber.encodeAll record.numbers

theorem length_encode (record : ObjectRecord) : record.encode.length = ObjectHeader.size :=
  RecordNumber.length_encodeAll _

theorem ofRecord_encode {record : ObjectRecord} (fits : record.header.Fits) :
    ObjectHeader.ofRecord record.encode = record.header := by
  have field := RecordNumber.recordField_encodeAll record.numbers
  have kind : recordField record.encode 16 2 = record.header.kind := field 6 rfl fits.kind
  have machine : recordField record.encode 18 2 = record.header.machine :=
    field 7 rfl fits.machine
  have entryPoint : recordField record.encode 24 8 = record.header.entryPoint :=
    field 9 rfl fits.entryPoint
  have tableOffset : recordField record.encode 40 8 = record.header.tableOffset :=
    field 11 rfl fits.tableOffset
  have flags : recordField record.encode 48 4 = record.header.flags := field 12 rfl fits.flags
  have tableEntrySize : recordField record.encode 58 2 = record.header.tableEntrySize :=
    field 16 rfl fits.tableEntrySize
  have tableCount : recordField record.encode 60 2 = record.header.tableCount :=
    field 17 rfl fits.tableCount
  have namesIndex : recordField record.encode 62 2 = record.header.namesIndex :=
    field 18 rfl fits.namesIndex
  unfold ObjectHeader.ofRecord
  rw [kind, machine, entryPoint, tableOffset, flags, tableEntrySize, tableCount, namesIndex]

theorem decode_encode {record : ObjectRecord} (fits : record.header.Fits) (rest : Bytes) :
    ObjectHeader.decode (record.encode ++ rest) = .ok record.header := by
  have field := RecordNumber.recordField_encodeAll record.numbers
  have whole : Bytes.slice? (record.encode ++ rest) 0 ObjectHeader.size = some record.encode :=
    Bytes.slice?_append [] record.encode rest
  have wide : recordField record.encode 4 1 = 2 := field 1 rfl (by decide)
  have little : recordField record.encode 5 1 = 1 := field 2 rfl (by decide)
  have magic : record.encode.take 4 = [0x7f, 0x45, 0x4c, 0x46] := rfl
  unfold ObjectHeader.decode
  rw [whole]
  dsimp only
  rw [if_neg (not_not_intro magic), if_neg (not_not_intro wide), if_neg (not_not_intro little),
    ofRecord_encode fits]

end ObjectRecord

end Symbolication
