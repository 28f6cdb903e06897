import Symbolication.Proofs.DecodeError.Location
import Symbolication.Proofs.Decoder.Relocation
import Symbolication.Proofs.Entry.Row

/-!
A unit can stand anywhere. Units before it and behind it, whatever they are, change nothing in what
its bytes decode to: only the places that errors report move with the unit.
-/

namespace Symbolication

open Relocation (Carries)

/-- How the bytes of a unit are moved that come to stand between others. -/
def Relocation.between (before behind : Bytes) : Relocation where
  source := .info
  distance := before.length
  behind := behind

variable {relocation : Relocation}

section Entries

variable (inEntries : relocation.source = .info) (context : AttributeContext)
include inEntries

omit inEntries in
theorem sectionReferenceOffset_carries (context : StatedContext) :
    relocation.Carries Eq (sectionReferenceOffset context) (sectionReferenceOffset context) := by
  unfold sectionReferenceOffset
  split
  · exact .address _
  · exact Carries.uint32.map_eq _

theorem AttributeValue.decoder_carries (start : Nat) (form : Form) :
    relocation.Carries Eq (decoder context start form)
      (decoder context (start + relocation.distance) form) := by
  have counting {count count' : Decoder Nat} (carries : relocation.Carries Eq count count') :
      relocation.Carries Eq (counted count) (counted count') :=
    carries.bind_eq fun number => .take number
  cases form with
  | address => exact (Carries.address _).map_eq _
  | block1 => exact (counting (.unsignedBytes 1)).map_eq _
  | block2 => exact (counting (.unsignedBytes 2)).map_eq _
  | block4 => exact (counting (Carries.uint32.bind_eq fun _ => .count _ _ _)).map_eq _
  | block => exact (counting .length).map_eq _
  | data1 => exact (Carries.take 1).map_eq _
  | data2 => exact (Carries.take 2).map_eq _
  | data4 => exact (Carries.take 4).map_eq _
  | data8 => exact (Carries.take 8).map_eq _
  | signedData => exact Carries.signed.map_eq _
  | unsignedData => exact Carries.unsigned.map_eq _
  | inlineString => exact Carries.text.map_eq _
  | stringOffset =>
      apply (Carries.unsignedBytes 4).bind_eq
      intro offset
      apply Carries.map_eq
      apply Carries.lift
      -- What is wrong with a text is found in the section of strings, which is not moved.
      intro error failed
      rw [Span.source_of_runAt (fun _ _ => .text) failed, inEntries]
      decide
  | flag => exact Carries.byte.map_eq _
  | flagPresent => exact .pure rfl
  | reference1 => exact (Carries.unsignedBytes 1).map_eq _
  | reference2 => exact (Carries.unsignedBytes 2).map_eq _
  | reference4 => exact (Carries.unsignedBytes 4).map_eq _
  | reference8 => exact Carries.uint64.bind_eq fun _ => (Carries.count _ _ _).map_eq _
  | unsignedReference => exact Carries.length.map_eq _
  | sectionReference =>
      exact (sectionReferenceOffset_carries _).bind_eq fun _ => (Carries.count _ _ _).map_eq _
  | sectionOffset => exact Carries.uint32.map_eq _
  | expression => exact (counting .length).map_eq _
  | signature => exact Carries.uint64.map_eq _
  | indirect => exact .failAt _ _

theorem Attribute.decoder_carries (declaration : AttributeDeclaration) :
    relocation.Carries Eq (decoder context declaration) (decoder context declaration) := by
  apply Carries.offset.bind
  rintro start _ rfl
  have form : relocation.Carries Eq (effectiveForm declaration.form)
      (effectiveForm declaration.form) := by
    unfold effectiveForm
    split
    · exact Carries.unsigned.map_eq _
    · exact .pure rfl
  apply form.bind_eq
  intro code
  split
  · exact .failAt _ _
  · exact (AttributeValue.decoder_carries inEntries context start _).bind_eq fun _ => .pure rfl

/-- Offsets of entries count from the first one, so they stay when both move. -/
theorem EntryBody.decoder_carries (abbreviations : AbbreviationTable) (first start : Nat)
    (code : UInt64) :
    relocation.Carries Eq (decoder abbreviations context first start code)
      (decoder abbreviations context (first + relocation.distance)
        (start + relocation.distance) code) := by
  unfold decoder
  rw [Nat.add_sub_add_right]
  split
  · exact .pure rfl
  · split
    · exact .failAt _ _
    · exact (Carries.mapM (Attribute.decoder_carries inEntries context) _).bind_eq fun _ =>
        .pure rfl

theorem EntryBody.item_carries (abbreviations : AbbreviationTable) (first : Nat) :
    relocation.Carries Eq (item abbreviations context first)
      (item abbreviations context (first + relocation.distance)) := by
  apply (Carries.located .unsigned).bind
  rintro ⟨start, code⟩ ⟨start', code'⟩ ⟨place, same⟩
  cases place
  cases same
  exact EntryBody.decoder_carries inEntries context abbreviations first start code

theorem EntryBody.rowFrom_carries (nothing : relocation.behind = [])
    (abbreviations : AbbreviationTable) (first : Nat) :
    relocation.Carries Eq (rowFrom abbreviations context first)
      (rowFrom abbreviations context (first + relocation.distance)) :=
  .itemsToEnd nothing (EntryBody.item_carries inEntries context abbreviations first)

theorem EntryTable.decoder_carries (nothing : relocation.behind = [])
    (abbreviations : AbbreviationTable) :
    relocation.Carries Eq (decoder abbreviations context) (decoder abbreviations context) := by
  apply Carries.map_eq
  rw [EntryBody.row_eq]
  apply Carries.offset.bind
  rintro first _ rfl
  exact EntryBody.rowFrom_carries inEntries context nothing abbreviations first

end Entries

namespace UnitHeader

def movedBy (distance : Nat) (header : UnitHeader) : UnitHeader :=
  { header with offset := header.offset + distance }

theorem stop_movedBy (distance : Nat) (header : UnitHeader) :
    (header.movedBy distance).stop = header.stop + distance :=
  Nat.add_right_comm _ _ _

theorem firstEntry_movedBy (distance : Nat) (header : UnitHeader) :
    (header.movedBy distance).firstEntry = header.firstEntry + distance :=
  Nat.add_right_comm _ _ _

/-- More bytes behind a unit cannot make it end behind the section. -/
theorem room_carries (header : UnitHeader) (position left : Nat) :
    relocation.Carries (fun header header' => header' = header.movedBy relocation.distance)
      (if header.totalSize < size ∨ position + left < header.stop then
        Decoder.failAt (min header.stop (position + left)) .unexpectedEnd
      else pure header)
      (if header.totalSize < size ∨ position + relocation.distance +
          (left + relocation.behind.length) < (header.movedBy relocation.distance).stop then
        Decoder.failAt (min (header.movedBy relocation.distance).stop
          (position + relocation.distance + (left + relocation.behind.length))) .unexpectedEnd
      else pure (header.movedBy relocation.distance)) := by
  rw [stop_movedBy]
  by_cases lacks : header.totalSize < size ∨ position + left < header.stop
  · rw [if_pos lacks]
    -- The bytes behind may give the unit the room it lacks, so only a failure that has none of them
    -- is carried along.
    constructor
    · intro cursor other next value _ outcome
      cases outcome
    · intro cursor other error nothing moves outcome
      have ends : position + relocation.distance + (left + relocation.behind.length) =
          position + left + relocation.distance := by
        rw [nothing, List.length_nil]
        omega
      rw [ends, if_pos (by omega), Nat.add_min_add_right]
      have carries : relocation.Carries Eq (Decoder.failAt _ _ : Decoder UnitHeader) _ :=
        .failAt (min header.stop (position + left)) .unexpectedEnd
      exact carries.failure nothing moves outcome
  · rw [if_neg lacks, if_neg (by omega)]
    exact .pure rfl

theorem decoder_carries :
    relocation.Carries (fun header header' => header' = header.movedBy relocation.distance)
      decoder decoder := by
  apply Carries.offset.bind
  rintro start _ rfl
  apply Carries.initialLength.bind_eq
  intro unitLength
  apply (Carries.version start).bind_eq
  intro version
  apply Carries.uint32.bind_eq
  intro abbreviationOffset
  apply Carries.addressWidth.bind_eq
  intro addressWidth
  apply Carries.offset.bind
  rintro position _ rfl
  apply Carries.left.bind
  rintro left _ rfl
  exact room_carries
    { offset := start, unitLength, version, abbreviationOffset := abbreviationOffset.toNat
      addressWidth } position left

/-- A header reads the same between other bytes, at the place where it stands. -/
theorem decode_placed {unit : Bytes} {header : UnitHeader} (decoded : decode unit 0 = .ok header)
    (before behind : Bytes) :
    decode (before ++ unit ++ behind) before.length = .ok (header.movedBy before.length) := by
  obtain ⟨_, next, outcome⟩ := Decoder.runAt_eq_ok.mp decoded
  have carries : (Relocation.between before behind).Carries _ decoder decoder := decoder_carries
  have moves : (Relocation.between before behind).Moves
      { source := .info, origin := 0, position := 0, rest := unit.drop 0 }
      { source := .info, origin := before.length, position := 0
        rest := (before ++ unit ++ behind).drop before.length } := by
    refine ⟨rfl, rfl, (Nat.zero_add _).symm, ?_⟩
    rw [List.append_assoc, List.drop_left]
    rfl
  obtain ⟨_, next, moved, _, rfl⟩ := carries.success moves outcome
  exact Decoder.runAt_eq_ok.mpr ⟨by simp, next, moved⟩

end UnitHeader

/-- What an error becomes when the section of entries is moved on. -/
def DecodeError.movedBy (distance : Nat) (error : DecodeError) : DecodeError :=
  if error.source = .info then { error with offset := error.offset + distance } else error

namespace CompileUnit

def movedBy (distance : Nat) (unit : CompileUnit) : CompileUnit :=
  { unit with header := unit.header.movedBy distance }

/-- The part of the section up to the end of the unit. -/
theorem owned_placed {unit : Bytes} {header : UnitHeader} (whole : header.stop = unit.length)
    (before behind : Bytes) :
    (before ++ unit ++ behind).take (header.movedBy before.length).stop =
      before ++ unit.take header.stop := by
  rw [UnitHeader.stop_movedBy, whole, List.take_length, Nat.add_comm, ← List.length_append,
    List.take_left]

theorem data_placed {unit : Bytes} {header : UnitHeader} (whole : header.stop = unit.length)
    (before behind : Bytes) :
    ((before ++ unit ++ behind).take (header.movedBy before.length).stop).drop
        (header.movedBy before.length).firstEntry =
      (unit.take header.stop).drop header.firstEntry := by
  rw [owned_placed whole, UnitHeader.firstEntry_movedBy, Nat.add_comm, ← List.drop_drop,
    List.drop_left]

theorem table_placed {unit : Bytes} {header : UnitHeader} (whole : header.stop = unit.length)
    (inside : header.firstEntry ≤ header.stop) (abbreviations : AbbreviationTable)
    (context : AttributeContext) (before behind : Bytes) :
    (EntryTable.decoder abbreviations context).runAt .info
        ((before ++ unit ++ behind).take (header.movedBy before.length).stop)
        (header.movedBy before.length).firstEntry =
      ((EntryTable.decoder abbreviations context).runAt .info (unit.take header.stop)
        header.firstEntry).mapError (.movedBy before.length) := by
  have carries : (Relocation.between before []).Carries Eq _ _ :=
    EntryTable.decoder_carries rfl context rfl abbreviations
  have starts : header.firstEntry ≤ (unit.take header.stop).length := by
    rw [List.length_take_of_le whole.le]
    exact inside
  have length : ((before ++ unit ++ behind).take (header.movedBy before.length).stop).length =
      before.length + (unit.take header.stop).length := by
    rw [owned_placed whole, List.length_append]
  have stands := data_placed whole before behind
  rw [UnitHeader.firstEntry_movedBy] at stands ⊢
  exact carries.runAt_eq rfl starts length stands

/-- What is found in other sections, or at fault there, does not move. -/
theorem mapError_movedBy {sections : DebugSections} {source : DebugSection} {α : Type}
    {result : Except DecodeError α} (other : source ≠ .info)
    (fails : FailsWith (DecodeError.FoundIn sections source) result) (distance : Nat) :
    result.mapError (.movedBy distance) = result := by
  cases result with
  | error error => exact congrArg Except.error (if_neg ((fails error rfl).1 ▸ other))
  | ok value => rfl

theorem mapError_bind {α β : Type} (result : Except DecodeError α)
    (continuation : α → Except DecodeError β) (function : DecodeError → DecodeError) :
    (result >>= continuation).mapError function =
      result.mapError function >>= fun value => (continuation value).mapError function := by
  cases result <;> rfl

/-- The line table does not depend on where the unit stands. -/
theorem lineTable?_movedBy (sections : DebugSections) (info : Bytes) (distance : Nat)
    (header : UnitHeader) (entries : List Entry) :
    lineTable? { sections with info } (header.movedBy distance) entries =
      lineTable? sections header entries := by
  rw [lineTable?_eq, lineTable?_eq]
  unfold lineOffset?
  cases entries.head? with
  | none => rfl
  | some first =>
      dsimp only [bind, Option.bind]
      cases first.value? .lineProgram with
      | none => rfl
      | some value =>
          dsimp only
          cases value.number? <;> rfl

/-- What a unit decodes to, or why it does not decode, is the same wherever it stands, but for the
places in the section of entries. -/
theorem ofHeader_placed (sections : DebugSections) {unit : Bytes} {header : UnitHeader}
    (whole : header.stop = unit.length) (inside : header.firstEntry ≤ header.stop)
    (before behind : Bytes) :
    ofHeader { sections with info := before ++ unit ++ behind } (header.movedBy before.length) =
      (movedBy before.length <$> ofHeader { sections with info := unit } header).mapError
        (.movedBy before.length) := by
  unfold ofHeader
  rw [map_bind, mapError_bind, mapError_movedBy (by decide) (AbbreviationTable.decode_fails _)]
  refine congrArg (Bind.bind _) (funext fun abbreviations => ?_)
  dsimp only
  rw [map_bind, mapError_bind, ← table_placed whole inside]
  refine congrArg (Bind.bind _) (funext fun table => ?_)
  rw [data_placed whole, map_bind, mapError_bind, lineTable?_movedBy,
    mapError_movedBy (by decide) (lineTable?_fails header table.entries)]
  rfl

/-- A unit decodes the same wherever it stands. Its header reads the same, at its own place. If it
decodes, then to the same abbreviations, entries, line table, data and base address, and every
offset from the first entry finds the same entry; if it does not, the error is the same, and is
reported as far behind its old place as the unit is if it is about the section of entries. -/
theorem decodes_the_same_anywhere {unit : Bytes} {header : UnitHeader}
    (decoded : UnitHeader.decode unit 0 = .ok header) (whole : header.stop = unit.length)
    (sections : DebugSections) (before behind : Bytes) :
    UnitHeader.decode (before ++ unit ++ behind) before.length =
        .ok { header with offset := before.length } ∧
      (∀ alone, ofHeader { sections with info := unit } header = .ok alone →
        ∃ placed, ofHeader { sections with info := before ++ unit ++ behind }
            { header with offset := before.length } = .ok placed ∧
          placed.abbreviations = alone.abbreviations ∧ placed.entries = alone.entries ∧
          placed.lineTable = alone.lineTable ∧ placed.data = alone.data ∧
          placed.baseAddress = alone.baseAddress ∧
          ∀ offset, placed.indexAt? offset = alone.indexAt? offset) ∧
      ∀ error, ofHeader { sections with info := unit } header = .error error →
        ofHeader { sections with info := before ++ unit ++ behind }
            { header with offset := before.length } =
          .error (if error.source = .info then
            { error with offset := error.offset + before.length } else error) := by
  have place : header.offset = 0 := UnitHeader.offset_of_decode decoded
  have moved : header.movedBy before.length = { header with offset := before.length } := by
    unfold UnitHeader.movedBy
    rw [place, Nat.zero_add]
  have inside : header.firstEntry ≤ header.stop := by
    have bounds := (UnitHeader.bounds_of_decode decoded).1
    rwa [← place] at bounds
  have same := ofHeader_placed sections whole inside before behind
  rw [← moved]
  refine ⟨UnitHeader.decode_placed decoded before behind, ?_, ?_⟩
  · intro alone succeeds
    rw [succeeds] at same
    exact ⟨alone.movedBy before.length, same, rfl, rfl, rfl, rfl, rfl, fun _ => rfl⟩
  · intro error fails
    rw [fails] at same
    exact same

/-- A unit of one named entry. -/
def sampleBytes : Bytes := [11, 0, 0, 0, 4, 0, 0, 0, 0, 0, 8, 1, 97, 0, 0]

def sampleSections : DebugSections where
  info := []
  abbreviations := [1, 46, 0, 3, 8, 0, 0, 0]
  addressRanges := []
  lines := []
  strings := []
  rangeLists := []

def sampleUnit : CompileUnit where
  header := {
    offset := 0, unitLength := 11, version := .four, abbreviationOffset := 0
    addressWidth := .eight }
  data := [1, 97, 0, 0]
  abbreviations := {
    declarations := [{
      code := 1, tag := .subprogram, hasChildren := false
      attributes := [{ name := .name, form := Form.inlineString.code }] }] }
  toEntryTable := .ofEntries [
    { offset := 0, code := 1, tag := .subprogram, hasChildren := false
      attributes := [{ name := .name, form := .inlineString, value := .text "a" }]
      parent := none },
    { EntryBody.null 3 with parent := none }]
  lineTable := none

/-- Once with the abbreviation of its entry and once without it. -/
theorem decodes_the_same_anywhere_sample :
    (∃ placed, ofHeader { sampleSections with info := [9, 9, 9] ++ sampleBytes ++ [7] }
        { sampleUnit.header with offset := 3 } = .ok placed ∧
      placed.entries = sampleUnit.entries) ∧
      ofHeader { sampleSections with
          info := [9, 9, 9] ++ sampleBytes ++ [7], abbreviations := [] }
          { sampleUnit.header with offset := 3 } =
        .error { source := .info, offset := 14, fault := .unknownAbbreviation 1 } := by
  have decoded : UnitHeader.decode sampleBytes 0 = .ok sampleUnit.header := by decide +kernel
  have succeeds : ofHeader { sampleSections with info := sampleBytes } sampleUnit.header =
      .ok sampleUnit := by
    decide +kernel
  have fails : ofHeader { sampleSections with info := sampleBytes, abbreviations := [] }
      sampleUnit.header =
        .error { source := .info, offset := 11, fault := .unknownAbbreviation 1 } := by
    decide +kernel
  obtain ⟨_, declared, _⟩ :=
    decodes_the_same_anywhere decoded rfl sampleSections [9, 9, 9] [7]
  obtain ⟨_, _, undeclared⟩ := decodes_the_same_anywhere decoded rfl
    { sampleSections with abbreviations := [] } [9, 9, 9] [7]
  obtain ⟨placed, decodes, _, entries, _⟩ := declared sampleUnit succeeds
  exact ⟨⟨placed, decodes, entries⟩, undeclared _ fails⟩

end CompileUnit

end Symbolication
