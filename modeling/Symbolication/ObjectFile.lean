import Symbolication.DebugSection
import Symbolication.Text.Utf8

/-!
Object files: 64-bit little-endian ELF, read for their sections. A table of section headers says
where each section lies; their names lie in one of the sections. Of two sections with one name the
first counts.
-/

namespace Symbolication

/-- Why a file is not read as an object. -/
inductive ObjectFault where
  | tooSmall
  | wrongMagic
  | not64Bit
  | notLittleEndian
  | unexpectedEntrySize
  | tableOutsideFile
deriving DecidableEq, Repr

def ObjectFault.message : ObjectFault → String
  | tooSmall => "file too small for an ELF header"
  | wrongMagic => "not an ELF file"
  | not64Bit => "only 64-bit ELF files are supported"
  | notLittleEndian => "only little-endian ELF files are supported"
  | unexpectedEntrySize => "unexpected section header size"
  | tableOutsideFile => "section header table outside the file"

structure ObjectHeader where
  kind : Nat
  machine : Nat
  entryPoint : Nat
  /-- Where the section headers begin; zero if there are none. -/
  tableOffset : Nat
  flags : Nat
  tableEntrySize : Nat
  /-- The number of section headers, or zero if the first of them holds it. -/
  tableCount : Nat
  /-- The index of the section of names, or the escape value if the first header holds it. -/
  namesIndex : Nat
deriving DecidableEq, Repr

structure SectionHeader where
  /-- Where the name begins among the names. -/
  nameOffset : Nat
  kind : Nat
  flags : Nat
  offset : Nat
  size : Nat
  link : Nat
deriving DecidableEq, Repr

def recordField (record : Bytes) (offset count : Nat) : Nat :=
  Bytes.littleEndian ((record.drop offset).take count)

namespace ObjectHeader

def size : Nat := 64

def ofRecord (record : Bytes) : ObjectHeader where
  kind := recordField record 16 2
  machine := recordField record 18 2
  entryPoint := recordField record 24 8
  tableOffset := recordField record 40 8
  flags := recordField record 48 4
  tableEntrySize := recordField record 58 2
  tableCount := recordField record 60 2
  namesIndex := recordField record 62 2

def decode (file : Bytes) : Except ObjectFault ObjectHeader :=
  match Bytes.slice? file 0 size with
  | none => .error .tooSmall
  | some record =>
      if record.take 4 ≠ [0x7f, 0x45, 0x4c, 0x46] then .error .wrongMagic
      else if recordField record 4 1 ≠ 2 then .error .not64Bit
      else if recordField record 5 1 ≠ 1 then .error .notLittleEndian
      else .ok (ofRecord record)

end ObjectHeader

namespace SectionHeader

def recordSize : Nat := 64

def ofRecord (record : Bytes) : SectionHeader where
  nameOffset := recordField record 0 4
  kind := recordField record 4 4
  flags := recordField record 8 8
  offset := recordField record 24 8
  size := recordField record 32 8
  link := recordField record 40 4

def ofTable : Nat → Bytes → List SectionHeader
  | 0, _ => []
  | count + 1, table => ofRecord (table.take recordSize) :: ofTable count (table.drop recordSize)

/-- The headers of a file. A count of zero stands in the first header instead. -/
def decodeTable (file : Bytes) (header : ObjectHeader) :
    Except ObjectFault (List SectionHeader) :=
  if header.tableOffset = 0 then .ok []
  else if header.tableEntrySize ≠ recordSize then .error .unexpectedEntrySize
  else
    match Bytes.slice? file header.tableOffset recordSize with
    | none => .error .tableOutsideFile
    | some first =>
        let count := if header.tableCount = 0 then (ofRecord first).size else header.tableCount
        match Bytes.slice? file header.tableOffset (count * recordSize) with
        | none => .error .tableOutsideFile
        | some table => .ok (ofTable count table)

def kindWithoutBytes : Nat := 8

def compressedBit : Nat := 11

/-- Whether the file holds the section's bytes as they are. -/
def hasPlainBytes (header : SectionHeader) : Bool :=
  header.kind ≠ kindWithoutBytes && !header.flags.testBit compressedBit

end SectionHeader

structure ObjectFile where
  bytes : Bytes
  header : ObjectHeader
  sections : List SectionHeader
deriving DecidableEq, Repr

namespace ObjectFile

def decode (file : Bytes) : Except ObjectFault ObjectFile := do
  let header ← ObjectHeader.decode file
  let sections ← SectionHeader.decodeTable file header
  .ok { bytes := file, header, sections }

/-- An index too large for the header stands in the first section header. -/
def namesIndexEscape : Nat := 0xffff

/-- The index of the section that holds the names. -/
def namesIndex (object : ObjectFile) : Nat :=
  if object.header.namesIndex = namesIndexEscape then object.sections.head?.elim 0 (·.link)
  else object.header.namesIndex

/-- The name of a section: the text up to a zero byte, if it is well-formed. -/
def nameOf? (object : ObjectFile) (header : SectionHeader) : Option String := do
  let names ← object.sections[object.namesIndex]?
  let (name, _) ← Bytes.splitAtZero? (object.bytes.drop (names.offset + header.nameOffset))
  Utf8.text? name

def sectionName? (object : ObjectFile) (index : Nat) : Option String :=
  object.sections[index]?.bind object.nameOf?

/-- The names of the sections that have one, each once. -/
def sectionNames (object : ObjectFile) : List String :=
  ((object.sections.filterMap object.nameOf?).filter (!·.isEmpty)).eraseDups

/-- The header of the first section with a name. The empty name is no section's. -/
def find? (object : ObjectFile) (name : String) : Option SectionHeader :=
  if name.isEmpty then none else object.sections.find? (object.nameOf? · = some name)

/-- The bytes of the first section with a name, if the file holds them. -/
def sectionBytes? (object : ObjectFile) (name : String) : Option Bytes := do
  let header ← object.find? name
  if header.hasPlainBytes then Bytes.slice? object.bytes header.offset header.size else none

def debugSections (object : ObjectFile) : Except DebugSection DebugSections :=
  DebugSections.collect fun source => object.sectionBytes? source.name

end ObjectFile

end Symbolication
