import Symbolication.Proofs.Encoding.Utf8
import Symbolication.Proofs.ObjectFile.Record

/-!
Object files as they are written: a header, the contents of the sections, their names, and the
table of section headers, which begins with one that stands for no section. A count or an index
that the file's header does not hold stands in that first section header.
-/

namespace Symbolication

/-- A section with its contents, and the numbers that its header repeats as they are. -/
structure WrittenSection where
  name : String
  kind : UInt32
  flags : UInt64
  address : UInt64
  link : UInt32
  information : UInt32
  alignment : UInt64
  entrySize : UInt64
  contents : Bytes
deriving DecidableEq, Repr

namespace WrittenSection

def encodeName (part : WrittenSection) : Bytes := Utf8.encode part.name ++ [0]

def record (part : WrittenSection) (nameOffset offset : Nat) : SectionRecord where
  header :=
    { nameOffset, kind := part.kind.toNat, flags := part.flags.toNat, offset
      size := part.contents.length, link := part.link.toNat }
  address := part.address
  information := part.information
  alignment := part.alignment
  entrySize := part.entrySize

/-- The headers of sections that stand one after the other, as their names do. -/
def records : Nat → Nat → List WrittenSection → List SectionRecord
  | _, _, [] => []
  | nameOffset, offset, part :: parts =>
      part.record nameOffset offset ::
        records (nameOffset + part.encodeName.length) (offset + part.contents.length) parts

/-- Whether the section can be found by its name and the file holds its bytes as they are. -/
structure WellFormed (part : WrittenSection) : Prop where
  named : part.name ≠ ""
  clean : '\x00' ∉ part.name.toList
  kind : part.kind.toNat ≠ SectionHeader.kindWithoutBytes
  plain : part.flags.toNat.testBit SectionHeader.compressedBit = false

instance (part : WrittenSection) : Decidable part.WellFormed :=
  decidable_of_iff (part.name ≠ "" ∧ '\x00' ∉ part.name.toList ∧
      part.kind.toNat ≠ SectionHeader.kindWithoutBytes ∧
      part.flags.toNat.testBit SectionHeader.compressedBit = false)
    ⟨fun ⟨named, clean, kind, plain⟩ => ⟨named, clean, kind, plain⟩,
      fun formed => ⟨formed.named, formed.clean, formed.kind, formed.plain⟩⟩

@[simp] theorem length_records (nameOffset offset : Nat) (parts : List WrittenSection) :
    (records nameOffset offset parts).length = parts.length := by
  induction parts generalizing nameOffset offset with
  | nil => rfl
  | cons part parts induction => rw [records, List.length_cons, induction, List.length_cons]

theorem records_append (nameOffset offset : Nat) (front back : List WrittenSection) :
    records nameOffset offset (front ++ back) = records nameOffset offset front ++
      records (nameOffset + (front.flatMap encodeName).length)
        (offset + (front.flatMap contents).length) back := by
  induction front generalizing nameOffset offset with
  | nil => rfl
  | cons part front induction =>
      simp only [List.cons_append, records, induction, List.flatMap_cons, List.length_append,
        Nat.add_assoc]

theorem records_fit {nameOffset offset : Nat} {parts : List WrittenSection}
    (names : nameOffset + (parts.flatMap encodeName).length < 2 ^ 32)
    (file : offset + (parts.flatMap contents).length < 2 ^ 64) :
    ∀ record ∈ records nameOffset offset parts, record.header.Fits := by
  induction parts generalizing nameOffset offset with
  | nil => simp [records]
  | cons part parts induction =>
      rw [List.flatMap_cons, List.length_append] at names file
      rw [records, List.forall_mem_cons]
      constructor
      · exact {
          nameOffset := show nameOffset < 2 ^ 32 by omega
          kind := part.kind.toNat_lt
          flags := part.flags.toNat_lt
          offset := show offset < 2 ^ 64 by omega
          size := show part.contents.length < 2 ^ 64 by omega
          link := part.link.toNat_lt }
      · exact induction (by omega) (by omega)

end WrittenSection

/-- An object file with all that it says about itself. -/
structure WrittenObject where
  kind : UInt16
  machine : UInt16
  entryPoint : UInt64
  flags : UInt32
  identVersion : UInt8
  system : UInt8
  systemVersion : UInt64
  version : UInt32
  programOffset : UInt64
  headerSize : UInt16
  programEntrySize : UInt16
  programCount : UInt16
  sections : List WrittenSection
  /-- The name of the section that holds the names. -/
  namesName : String
  /-- The bytes between the names and the table. -/
  gap : Bytes
  /-- Whether the first section header holds the count of headers. -/
  countInTable : Bool
  /-- Whether the first section header holds the index of the section of names. -/
  indexInTable : Bool
deriving DecidableEq, Repr

namespace WrittenObject

variable (object : WrittenObject)

/-- The names one after the other, behind the empty name. -/
def names : Bytes :=
  0 :: (object.sections.flatMap WrittenSection.encodeName ++ (Utf8.encode object.namesName ++ [0]))

def namesSection : WrittenSection where
  name := object.namesName
  kind := 3
  flags := 0
  address := 0
  link := 0
  information := 0
  alignment := 1
  entrySize := 0
  contents := object.names

/-- All sections in the order of their headers; the last one holds the names. -/
def listed : List WrittenSection := object.sections ++ [object.namesSection]

def count : Nat := object.listed.length + 1

def namesIndex : Nat := object.sections.length + 1

def tableOffset : Nat :=
  ObjectHeader.size + (object.listed.flatMap WrittenSection.contents ++ object.gap).length

def header : ObjectRecord where
  header :=
    { kind := object.kind.toNat, machine := object.machine.toNat
      entryPoint := object.entryPoint.toNat, tableOffset := object.tableOffset
      flags := object.flags.toNat, tableEntrySize := SectionHeader.recordSize
      tableCount := if object.countInTable then 0 else object.count
      namesIndex :=
        if object.indexInTable then ObjectFile.namesIndexEscape else object.namesIndex }
  identVersion := object.identVersion
  system := object.system
  systemVersion := object.systemVersion
  version := object.version
  programOffset := object.programOffset
  headerSize := object.headerSize
  programEntrySize := object.programEntrySize
  programCount := object.programCount

/-- The first section header. -/
def firstRecord : SectionRecord where
  header :=
    { nameOffset := 0, kind := 0, flags := 0, offset := 0
      size := if object.countInTable then object.count else 0
      link := if object.indexInTable then object.namesIndex else 0 }
  address := 0
  information := 0
  alignment := 0
  entrySize := 0

def records : List SectionRecord :=
  object.firstRecord :: WrittenSection.records 1 ObjectHeader.size object.listed

def encode : Bytes :=
  object.header.encode ++ (object.listed.flatMap WrittenSection.contents ++ object.gap ++
    object.records.flatMap SectionRecord.encode)

/-- Whether the sections can be found, every number has room where it is written, and the file's
header holds a count and an index only if they mean themselves there. -/
structure WellFormed : Prop where
  sections : ∀ part ∈ object.sections, part.WellFormed
  named : object.namesName ≠ ""
  clean : '\x00' ∉ object.namesName.toList
  file : object.encode.length < 2 ^ 64
  names : object.names.length < 2 ^ 32
  count : object.countInTable = false → object.count < 2 ^ 16
  index : object.indexInTable = false → object.namesIndex < ObjectFile.namesIndexEscape

/-- The file as it is opened. -/
def opened : ObjectFile where
  bytes := object.encode
  header := object.header.header
  sections := object.records.map SectionRecord.header

def namesOffset : Nat :=
  ObjectHeader.size + (object.sections.flatMap WrittenSection.contents).length

theorem names_eq_flatMap : object.names = 0 :: object.listed.flatMap WrittenSection.encodeName := by
  unfold names listed
  rw [List.flatMap_append, List.flatMap_singleton]
  rfl

theorem length_records : object.records.length = object.count := by
  unfold records count
  rw [List.length_cons, WrittenSection.length_records]

theorem length_front : (object.header.encode ++
    (object.listed.flatMap WrittenSection.contents ++ object.gap)).length = object.tableOffset := by
  unfold tableOffset
  rw [List.length_append, ObjectRecord.length_encode]

theorem length_encode : object.encode.length =
    object.tableOffset + object.count * SectionHeader.recordSize := by
  unfold encode
  rw [← List.append_assoc, List.length_append, length_front, SectionRecord.length_flatMap_encode,
    length_records]

variable {object}

theorem WellFormed.listed (wellFormed : object.WellFormed) :
    ∀ part ∈ object.listed, part.WellFormed := by
  unfold WrittenObject.listed
  rw [List.forall_mem_append, List.forall_mem_singleton]
  have kind : (3 : UInt32).toNat ≠ SectionHeader.kindWithoutBytes := by decide
  have plain : (0 : UInt64).toNat.testBit SectionHeader.compressedBit = false := by decide
  exact ⟨wellFormed.sections, wellFormed.named, wellFormed.clean, kind, plain⟩

theorem WellFormed.header (wellFormed : object.WellFormed) : object.header.header.Fits where
  kind := object.kind.toNat_lt
  machine := object.machine.toNat_lt
  entryPoint := object.entryPoint.toNat_lt
  tableOffset := by
    have file := wellFormed.file
    rw [length_encode] at file
    exact Nat.lt_of_le_of_lt (Nat.le_add_right _ _) file
  flags := object.flags.toNat_lt
  tableEntrySize := show SectionHeader.recordSize < 2 ^ 16 by decide
  tableCount := by
    change (if object.countInTable then 0 else object.count) < 2 ^ 16
    split
    · decide
    · rename_i inHeader
      exact wellFormed.count (eq_false_of_ne_true inHeader)
  namesIndex := by
    change (if object.indexInTable then ObjectFile.namesIndexEscape else object.namesIndex) < 2 ^ 16
    split
    · decide
    · rename_i inHeader
      exact Nat.lt_trans (wellFormed.index (eq_false_of_ne_true inHeader)) (by decide)

/-- Every section has a name of its own among the names, so the names tell how many there are. -/
theorem length_listed_le : object.listed.length ≤ object.names.length := by
  have each (parts : List WrittenSection) :
      parts.length ≤ (parts.flatMap WrittenSection.encodeName).length := by
    induction parts with
    | nil => exact Nat.zero_le _
    | cons part parts induction =>
        rw [List.flatMap_cons, List.length_append, List.length_cons]
        unfold WrittenSection.encodeName at *
        rw [List.length_append, List.length_singleton]
        omega
  rw [names_eq_flatMap, List.length_cons]
  exact Nat.le_succ_of_le (each object.listed)

theorem WellFormed.records (wellFormed : object.WellFormed) :
    ∀ record ∈ object.records, record.header.Fits := by
  have file := wellFormed.file
  have names := wellFormed.names
  have listed := object.length_listed_le
  rw [length_encode] at file
  unfold WrittenObject.records
  rw [List.forall_mem_cons]
  constructor
  · exact {
      nameOffset := show 0 < 2 ^ 32 by decide
      kind := show 0 < 2 ^ 32 by decide
      flags := show 0 < 2 ^ 64 by decide
      offset := show 0 < 2 ^ 64 by decide
      size := by
        change (if object.countInTable then object.count else 0) < 2 ^ 64
        unfold SectionHeader.recordSize at file
        split <;> omega
      link := by
        change (if object.indexInTable then object.namesIndex else 0) < 2 ^ 32
        unfold WrittenObject.namesIndex
        unfold WrittenObject.listed at listed
        rw [List.length_append, List.length_singleton] at listed
        split <;> omega }
  · apply WrittenSection.records_fit
    · rw [names_eq_flatMap, List.length_cons] at names
      omega
    · unfold tableOffset at file
      rw [List.length_append] at file
      omega

theorem decodeTable_encode (wellFormed : object.WellFormed) :
    SectionHeader.decodeTable object.encode object.header.header =
      .ok (object.records.map SectionRecord.header) := by
  have fits := wellFormed.records
  have count : (if object.header.header.tableCount = 0 then object.firstRecord.header.size
      else object.header.header.tableCount) = object.count := by
    change (if (if object.countInTable then 0 else object.count) = 0 then
      (if object.countInTable then object.count else 0)
      else (if object.countInTable then 0 else object.count)) = object.count
    cases object.countInTable with
    | true => rfl
    | false => exact if_neg (Nat.succ_ne_zero _)
  have first : Bytes.slice? object.encode object.header.header.tableOffset
      SectionHeader.recordSize = some object.firstRecord.encode := by
    have found := Bytes.slice?_append (object.header.encode ++
        (object.listed.flatMap WrittenSection.contents ++ object.gap)) object.firstRecord.encode
      ((WrittenSection.records 1 ObjectHeader.size object.listed).flatMap SectionRecord.encode)
    rw [length_front, SectionRecord.length_encode, ← List.flatMap_cons, List.append_assoc] at found
    exact found
  have table : Bytes.slice? object.encode object.header.header.tableOffset
      (object.count * SectionHeader.recordSize) =
        some (object.records.flatMap SectionRecord.encode) := by
    have found := Bytes.slice?_append (object.header.encode ++
        (object.listed.flatMap WrittenSection.contents ++ object.gap))
      (object.records.flatMap SectionRecord.encode) []
    rw [length_front, SectionRecord.length_flatMap_encode, length_records, List.append_nil,
      List.append_assoc] at found
    exact found
  have nonzero : object.header.header.tableOffset ≠ 0 := by
    change ObjectHeader.size + _ ≠ 0
    unfold ObjectHeader.size
    omega
  have plain : object.header.header.tableEntrySize = SectionHeader.recordSize := rfl
  unfold SectionHeader.decodeTable
  rw [if_neg nonzero, if_neg (not_not_intro plain), first]
  dsimp only
  rw [SectionRecord.ofRecord_encode (fits _ List.mem_cons_self), count, table, ← length_records]
  exact congrArg Except.ok (SectionRecord.ofTable_encode fits)

theorem decode_encode (wellFormed : object.WellFormed) :
    ObjectFile.decode object.encode = .ok object.opened := by
  have header : ObjectHeader.decode object.encode = .ok object.header.header :=
    ObjectRecord.decode_encode wellFormed.header _
  unfold ObjectFile.decode
  rw [header]
  change (SectionHeader.decodeTable object.encode object.header.header).bind _ = _
  rw [decodeTable_encode wellFormed]
  rfl

end WrittenObject

end Symbolication
