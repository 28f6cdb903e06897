import Symbolication.CompileUnit.Subprogram
import Symbolication.Proofs.Checked.Entry
import Symbolication.Proofs.Checked.Line.Program
import Symbolication.Proofs.Checked.Ranges
import Symbolication.Proofs.CompileUnit.Header

/-!
Readings of units, and the searches in one unit. A header is accepted only if its unit holds it and
lies in the section, so the slices that are cut for the unit are in range.
-/

namespace Symbolication

namespace UnitHeader

def addressWidthReading : Reading Width := do
  let (start, size) ← Reading.located Reading.byte
  Reading.checkedWidth start size

def reading : Reading UnitHeader := do
  let start ← Reading.offset
  let unitLength ← Reading.initialLength
  let version ← Reading.version start
  let abbreviationOffset ← Reading.uint32
  let addressWidth ← addressWidthReading
  let stop ← Reading.stop
  let least ← (Checked.subtract size lengthSize : Checked Nat)
  let header : UnitHeader :=
    { offset := start, unitLength, version, abbreviationOffset := abbreviationOffset.toNat
      addressWidth }
  if header.unitLength < least ∨ stop < header.stop then
    Reading.failAt (min header.stop stop) .unexpectedEnd
  else
    pure header

def decodeChecked (info : Bytes) (offset : Nat) : ExceptT DecodeError Checked UnitHeader :=
  reading.runAt .info info offset

/-- Walks the chain of units, past no more than `count` of them. -/
def findChecked (info : Bytes) (offset : Nat) :
    Nat → Nat → ExceptT DecodeError Checked (Option UnitHeader)
  | 0, _ => (throw Trap.rounds : Checked (Option UnitHeader))
  | count + 1, start =>
      if start < info.length then do
        let header ← decodeChecked info start
        if header.contains offset then pure (some header)
        else findChecked info offset count header.stop
      else pure none

def containingChecked (info : Bytes) (offset : Nat) :
    ExceptT DecodeError Checked (Option UnitHeader) :=
  findChecked info offset (info.length + 1) 0

variable {floor : Nat}

theorem addressWidthReading_follows :
    Follows floor Eq addressWidthReading Decoder.addressWidth :=
  (Follows.located Reading.byte_performs.follows).bind_eq fun _ => .checkedWidth _ _

theorem reading_follows : Follows floor Eq reading decoder := by
  apply Follows.offset.bind_eq
  intro start
  apply Follows.initialLength.bind_eq
  intro unitLength
  apply (Follows.version start).bind_eq
  intro version
  apply Reading.uint32_performs.follows.bind_eq
  intro abbreviationOffset
  apply addressWidthReading_follows.bind_eq
  intro addressWidth
  apply Follows.stop_bind
  intro position left
  apply Follows.checked (Checked.subtract_eq_ok (by decide : lengthSize ≤ size))
  refine .ite ?_ (fun _ => .failAt _ _) (fun _ => .pure rfl)
  unfold totalSize size lengthSize
  omega

theorem decodeChecked_settles (info : Bytes) (offset : Nat) :
    Settles Eq (decodeChecked info offset) (decode info offset) :=
  reading_follows.runAt .info info offset

theorem findChecked_settles (info : Bytes) (offset : Nat) {count start : Nat}
    (enough : info.length - start < count) :
    Settles Eq (findChecked info offset count start) (find? info offset start) := by
  induction count generalizing start with
  | zero => exact absurd enough (Nat.not_lt_zero _)
  | succ count induction =>
      have decodes := decodeChecked_settles info start
      unfold findChecked
      rw [find?]
      by_cases inside : start < info.length
      · rw [if_pos inside, if_pos inside]
        split
        · rename_i error outcome
          rw [outcome] at decodes
          exact decodes.bind_error
        · rename_i header outcome
          rw [outcome] at decodes
          apply decodes.bind_ok
          rintro _ rfl
          split
          · exact .pure rfl
          · have behind := (bounds_of_decode outcome).1
            apply induction
            unfold size at behind
            omega
      · rw [if_neg inside, if_neg inside]
        exact .pure rfl

theorem containingChecked_settles (info : Bytes) (offset : Nat) :
    Settles Eq (containingChecked info offset) (containing? info offset) :=
  findChecked_settles info offset (Nat.lt_succ_self _)

end UnitHeader

namespace CompileUnit

def lineOffsetChecked (header : UnitHeader) (entries : List Entry) :
    Checked (Option (UInt64 × Nat)) :=
  match entries.head? with
  | none => pure none
  | some first =>
      match first.value? .lineProgram with
      | none => pure none
      | some value => do
          let offset? ← value.numberChecked
          pure (offset?.map fun offset => (offset, header.firstEntry + first.offset))

def lineTableChecked (sections : DebugSections) (header : UnitHeader) (entries : List Entry) :
    ExceptT DecodeError Checked (Option LineTable) := do
  match ← (lineOffsetChecked header entries : Checked (Option (UInt64 × Nat))) with
  | none => pure none
  | some (offset, place) => do
      let offset ← liftExcept (DebugSection.info.count place offset)
      some <$> LineTable.decodeChecked sections.lines offset header.addressWidth.toUInt8

def ofHeaderChecked (sections : DebugSections) (header : UnitHeader) :
    ExceptT DecodeError Checked CompileUnit := do
  let abbreviations ←
    AbbreviationTable.decodeChecked sections.abbreviations header.abbreviationOffset
  let owned ← (Checked.slice sections.info 0 header.stop : Checked Bytes)
  let context : AttributeContext :=
    { version := header.version, addressWidth := header.addressWidth, strings := sections.strings }
  let table ← (EntryTable.reading abbreviations context).runAt .info owned header.firstEntry
  let lineTable ← lineTableChecked sections header table.entries
  let data ← (Checked.slice sections.info header.firstEntry header.stop : Checked Bytes)
  pure { toEntryTable := table, header, data, abbreviations, lineTable }

def decodeChecked (sections : DebugSections) (offset : Nat) :
    ExceptT DecodeError Checked CompileUnit := do
  let header ← UnitHeader.decodeChecked sections.info offset
  ofHeaderChecked sections header

def indexAtSectionOffsetChecked (unit : CompileUnit) (offset : Nat) : Checked (Option Nat) :=
  if unit.header.contains offset then do
    let distance ← Checked.subtract offset unit.header.offset
    pure (unit.indexAtUnitOffset? distance)
  else pure none

def stopChecked (low : UInt64) (high : Attribute) : Checked (Option UInt64) :=
  match high.form.code.formClass? with
  | some .address => pure high.value.address?
  | some .constant => do
      let number? ← high.value.numberChecked
      pure (number?.map (low + ·))
  | _ => pure none

def contiguousCodeChecked (entry : Entry) : Checked (List AddressRange) :=
  match (entry.value? .lowAddress).bind AttributeValue.address?, entry.attribute? .highAddress with
  | some low, some high => do
      let stop? ← stopChecked low high
      pure (stop?.elim [] fun stop => [{ start := low, stop }])
  | _, _ => pure []

def codeChecked (unit : CompileUnit) (rangeLists : Bytes) (entry : Entry) :
    ExceptT DecodeError Checked (List AddressRange) :=
  match entry.value? .ranges with
  | none => (contiguousCodeChecked entry : Checked (List AddressRange))
  | some value => do
      let number? ← (value.numberChecked : Checked (Option UInt64))
      match number? with
      | none => pure []
      | some offset => do
          let offset ← liftExcept (DebugSection.info.count (unit.sectionOffset entry) offset)
          RangeList.decodeChecked rangeLists offset unit.header.addressWidth.toUInt8
            unit.baseAddress

def coversAddressChecked (unit : CompileUnit) (rangeLists : Bytes) (address : UInt64)
    (entry : Entry) : ExceptT DecodeError Checked Bool :=
  if entry.tag = .subprogram then
    (fun ranges => ranges.any (·.contains address)) <$> unit.codeChecked rangeLists entry
  else
    pure false

def firstIndexChecked (test : Entry → ExceptT DecodeError Checked Bool) :
    Nat → List Entry → ExceptT DecodeError Checked (Option Nat)
  | _, [] => pure none
  | index, entry :: rest => do
      if ← test entry then pure (some index) else firstIndexChecked test (index + 1) rest

def subprogramAtChecked (unit : CompileUnit) (rangeLists : Bytes) (address : UInt64) :
    ExceptT DecodeError Checked (Option Nat) :=
  firstIndexChecked (unit.coversAddressChecked rangeLists address) 0 unit.entries

theorem lineOffsetChecked_eq (header : UnitHeader) (entries : List Entry) :
    lineOffsetChecked header entries = .ok (lineOffset? header entries) := by
  unfold lineOffsetChecked lineOffset?
  cases entries.head? with
  | none => rfl
  | some first =>
      cases named : first.value? .lineProgram with
      | none => simp only [named, Option.bind_eq_bind, Option.bind_some, Option.bind_none]; rfl
      | some value =>
          simp only [named, Option.bind_eq_bind, Option.bind_some]
          rw [Checked.bind_of_ok value.numberChecked_eq]
          cases value.number? <;> rfl

theorem lineTableChecked_settles (sections : DebugSections) (header : UnitHeader)
    (entries : List Entry) :
    Settles Eq (lineTableChecked sections header entries) (lineTable? sections header entries) := by
  unfold lineTable?
  apply Settles.checked (lineOffsetChecked_eq header entries)
  rcases lineOffset? header entries with _ | ⟨offset, place⟩
  · exact .pure rfl
  · apply (Settles.ofExcept rfl).bind
    rintro offset' _ _ rfl
    exact (LineTable.decodeChecked_settles sections.lines _ _).map_eq some

theorem ofHeaderChecked_settles {sections : DebugSections} {header : UnitHeader}
    (ordered : header.firstEntry ≤ header.stop) (inside : header.stop ≤ sections.info.length) :
    Settles Eq (ofHeaderChecked sections header) (ofHeader sections header) := by
  apply (AbbreviationTable.decodeChecked_settles _ _).bind
  rintro abbreviations _ _ rfl
  apply Settles.checked (Checked.slice_eq_ok (Nat.zero_le _) inside)
  apply ((EntryTable.reading_follows _ _).runAt _ _ _).bind
  rintro table _ _ rfl
  apply (lineTableChecked_settles sections header table.entries).bind
  rintro lineTable _ _ rfl
  apply Settles.checked (Checked.slice_eq_ok ordered inside)
  exact .pure rfl

theorem decodeChecked_settles (sections : DebugSections) (offset : Nat) :
    Settles Eq (decodeChecked sections offset) (decode sections offset) := by
  apply (UnitHeader.decodeChecked_settles sections.info offset).bind
  rintro header _ decoded rfl
  obtain ⟨holds, inside⟩ := UnitHeader.bounds_of_decode decoded
  have place := UnitHeader.offset_of_decode decoded
  exact ofHeaderChecked_settles (by unfold UnitHeader.firstEntry; omega) inside

theorem indexAtSectionOffsetChecked_eq (unit : CompileUnit) (offset : Nat) :
    unit.indexAtSectionOffsetChecked offset = .ok (unit.indexAtSectionOffset? offset) := by
  unfold indexAtSectionOffsetChecked indexAtSectionOffset?
  split
  · rename_i contains
    have behind : unit.header.offset ≤ offset := by
      simp only [UnitHeader.contains, Bool.and_eq_true, decide_eq_true_eq] at contains
      exact contains.1
    rw [Checked.subtract_eq_ok behind]
    rfl
  · rfl

theorem contiguousCodeChecked_eq (entry : Entry) :
    contiguousCodeChecked entry = .ok (contiguousCode entry) := by
  unfold contiguousCodeChecked contiguousCode
  cases (entry.value? .lowAddress).bind AttributeValue.address? with
  | none => rfl
  | some low =>
      cases entry.attribute? .highAddress with
      | none => rfl
      | some high =>
          dsimp only
          unfold stopChecked
          cases high.form.code.formClass? with
          | none => rfl
          | some formClass =>
              cases formClass with
              | address =>
                  dsimp only
                  cases high.value.address? <;> rfl
              | constant =>
                  dsimp only
                  rw [high.value.numberChecked_eq]
                  cases high.value.number? <;> rfl
              | _ => rfl

theorem codeChecked_settles (unit : CompileUnit) (rangeLists : Bytes) (entry : Entry) :
    Settles Eq (unit.codeChecked rangeLists entry) (unit.code rangeLists entry) := by
  unfold codeChecked code
  cases entry.value? .ranges with
  | none =>
      dsimp only
      rw [contiguousCodeChecked_eq]
      exact .pure rfl
  | some value =>
      dsimp only
      apply Settles.checked value.numberChecked_eq
      cases value.number? with
      | none => exact .pure rfl
      | some offset =>
          apply (Settles.ofExcept rfl).bind
          rintro offset' _ _ rfl
          exact RangeList.decodeChecked_settles _ _ _ _

theorem coversAddressChecked_settles (unit : CompileUnit) (rangeLists : Bytes) (address : UInt64)
    (entry : Entry) :
    Settles Eq (unit.coversAddressChecked rangeLists address entry)
      (unit.coversAddress rangeLists address entry) := by
  unfold coversAddressChecked coversAddress
  split
  · apply (codeChecked_settles unit rangeLists entry).map
    rintro ranges _ rfl
    rfl
  · exact .pure rfl

theorem firstIndexChecked_settles {testChecked : Entry → ExceptT DecodeError Checked Bool}
    {test : Entry → Except DecodeError Bool}
    (settles : ∀ entry, Settles Eq (testChecked entry) (test entry)) (index : Nat)
    (entries : List Entry) :
    Settles Eq (firstIndexChecked testChecked index entries) (firstIndex? test index entries) := by
  induction entries generalizing index with
  | nil => exact .pure rfl
  | cons entry rest induction =>
      have tests := settles entry
      unfold firstIndexChecked firstIndex?
      split
      · rename_i error outcome
        rw [outcome] at tests
        exact tests.bind_error
      · rename_i outcome
        rw [outcome] at tests
        apply tests.bind_ok
        rintro _ rfl
        exact .pure rfl
      · rename_i outcome
        rw [outcome] at tests
        apply tests.bind_ok
        rintro _ rfl
        exact induction (index + 1)

theorem subprogramAtChecked_settles (unit : CompileUnit) (rangeLists : Bytes)
    (address : UInt64) :
    Settles Eq (unit.subprogramAtChecked rangeLists address)
      (unit.subprogramAt? rangeLists address) :=
  firstIndexChecked_settles (coversAddressChecked_settles unit rangeLists address) 0 unit.entries

end CompileUnit

end Symbolication
