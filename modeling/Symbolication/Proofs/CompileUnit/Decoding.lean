import Symbolication.Proofs.CompileUnit.Chain
import Symbolication.Proofs.DecodeError.Location
import Symbolication.Proofs.Entry.Attribute
import Symbolication.Proofs.Entry.Forest
import Symbolication.Proofs.Entry.Scopes

/-!
Units that bytes decode to, on the chain of units or not. The entries fill the unit behind its
header and stand in their scopes; each is read at its own place, and each of its attributes behind
the ones declared before it.
-/

namespace Symbolication

namespace CompileUnit

variable {sections : DebugSections} {unit : CompileUnit} {entry : Entry} {offset index start : Nat}

/-- What the attributes of a unit are read with. -/
def attributeContext (unit : CompileUnit) (strings : Bytes) : AttributeContext where
  version := unit.header.version
  addressWidth := unit.header.addressWidth
  strings := strings

/-- The cursor at a place of the unit, counted from the first entry. -/
def cursorAt (unit : CompileUnit) (place : Nat) : Cursor where
  source := .info
  origin := unit.header.firstEntry
  position := place
  rest := unit.data.drop place

/-- The entry at an index begins at an offset of the section. -/
def Starts (unit : CompileUnit) (index offset : Nat) : Prop :=
  ∃ entry, unit.entries[index]? = some entry ∧ unit.sectionOffset entry = offset

/-- The parts of a unit, as they decode. -/
structure DecodedAt (sections : DebugSections) (start : Nat) (unit : CompileUnit) : Prop where
  header : UnitHeader.decode sections.info start = .ok unit.header
  data : unit.data = (sections.info.take unit.header.stop).drop unit.header.firstEntry
  table : (EntryTable.decoder unit.abbreviations (unit.attributeContext sections.strings)).runAt
    .info (sections.info.take unit.header.stop) unit.header.firstEntry = .ok unit.toEntryTable

/-- A unit that some sections decode to. -/
def IsDecoded (unit : CompileUnit) : Prop := ∃ sections start, DecodedAt sections start unit

/-- What becomes of a header: the bytes behind it are kept, and the entries are read from them. -/
theorem parts_of_ofHeader {header : UnitHeader} (decoded : ofHeader sections header = .ok unit) :
    unit.header = header ∧ unit.data = (sections.info.take header.stop).drop header.firstEntry ∧
      (EntryTable.decoder unit.abbreviations (unit.attributeContext sections.strings)).runAt .info
        (sections.info.take header.stop) header.firstEntry = .ok unit.toEntryTable := by
  unfold ofHeader at decoded
  obtain ⟨abbreviations, _, decoded⟩ := bind_eq_ok.mp decoded
  obtain ⟨table, tableDecodes, decoded⟩ := bind_eq_ok.mp decoded
  obtain ⟨lineTable, _, decoded⟩ := bind_eq_ok.mp decoded
  cases decoded
  exact ⟨rfl, rfl, tableDecodes⟩

theorem decodedAt_of_decode (decoded : decode sections start = .ok unit) :
    DecodedAt sections start unit := by
  obtain ⟨header, headerDecodes, decoded⟩ := bind_eq_ok.mp decoded
  obtain ⟨rfl, data, table⟩ := parts_of_ofHeader decoded
  exact ⟨headerDecodes, data, table⟩

namespace DecodedAt

theorem table_run (decoded : DecodedAt sections start unit) :
    ∃ next, (EntryTable.decoder unit.abbreviations (unit.attributeContext sections.strings)).run
      (unit.cursorAt 0) = .ok (unit.toEntryTable, next) := by
  obtain ⟨_, next, outcome⟩ := Decoder.runAt_eq_ok.mp decoded.table
  rw [← decoded.data] at outcome
  exact ⟨next, outcome⟩

theorem nested (decoded : DecodedAt sections start unit) : Entry.Nested unit.entries := by
  obtain ⟨_, outcome⟩ := decoded.table_run
  exact EntryTable.nested_of_run outcome

/-- The entries fill the unit behind its header. -/
theorem tiles (decoded : DecodedAt sections start unit) :
    EntryBody.Tiles 0 (unit.header.stop - unit.header.firstEntry)
      (unit.entries.map Entry.toEntryBody) := by
  have ends := (UnitHeader.bounds_of_decode decoded.header).2
  have tiles := EntryTable.decoder_tiles decoded.table
  rwa [List.length_take_of_le ends] at tiles

theorem increasing (decoded : DecodedAt sections start unit) :
    unit.entries.Pairwise fun earlier later => earlier.offset < later.offset := by
  obtain ⟨_, outcome⟩ := decoded.table_run
  exact EntryTable.increasing_of_run outcome

theorem indexAt?_eq_some (decoded : DecodedAt sections start unit) :
    unit.indexAt? offset = some index ↔
      ∃ entry, unit.entries[index]? = some entry ∧ entry.offset = offset := by
  obtain ⟨_, outcome⟩ := decoded.table_run
  exact EntryTable.indexAt?_of_run outcome

theorem sectionOffset_lt (decoded : DecodedAt sections start unit)
    (found : unit.entries[index]? = some entry) :
    unit.header.firstEntry ≤ unit.sectionOffset entry ∧
      unit.sectionOffset entry < unit.header.stop := by
  have member := List.mem_map_of_mem (List.mem_of_getElem? found) (f := Entry.toEntryBody)
  have bounds := decoded.tiles.within _ member
  unfold sectionOffset
  omega

theorem contains_of_starts (decoded : DecodedAt sections start unit)
    (starts : unit.Starts index offset) : unit.header.contains offset := by
  obtain ⟨entry, found, rfl⟩ := starts
  have bounds := decoded.sectionOffset_lt found
  unfold UnitHeader.firstEntry at bounds
  rw [UnitHeader.contains_iff]
  omega

theorem indexAtUnitOffset?_eq_some (decoded : DecodedAt sections start unit) :
    unit.indexAtUnitOffset? offset = some index ↔
      unit.Starts index (unit.header.offset + offset) := by
  unfold indexAtUnitOffset? Starts sectionOffset UnitHeader.firstEntry
  by_cases behindHeader : UnitHeader.size ≤ offset
  · rw [if_pos behindHeader, decoded.indexAt?_eq_some]
    refine exists_congr fun entry => and_congr_right fun _ => ?_
    omega
  · rw [if_neg behindHeader]
    constructor
    · intro found
      cases found
    · rintro ⟨entry, _, place⟩
      omega

theorem indexAtSectionOffset?_eq_some (decoded : DecodedAt sections start unit) :
    unit.indexAtSectionOffset? offset = some index ↔ unit.Starts index offset := by
  unfold indexAtSectionOffset?
  by_cases contains : unit.header.contains offset
  · have behind := (UnitHeader.contains_iff.mp contains).1
    rw [if_pos contains, decoded.indexAtUnitOffset?_eq_some, Nat.add_sub_cancel' behind]
  · rw [if_neg contains]
    constructor
    · intro found
      cases found
    · intro starts
      exact absurd (decoded.contains_of_starts starts) contains

/-- Every entry is read at its own place. -/
theorem item_run (decoded : DecodedAt sections start unit) (member : entry ∈ unit.entries) :
    ∃ next, (EntryBody.item unit.abbreviations (unit.attributeContext sections.strings)
      unit.header.firstEntry).run (unit.cursorAt entry.offset) =
        .ok (entry.toEntryBody, next) := by
  obtain ⟨_, outcome⟩ := decoded.table_run
  obtain ⟨place, next, reaches, reads⟩ := EntryTable.item_of_run outcome member
  refine ⟨next, ?_⟩
  have offset := EntryBody.offset_of_item reads
  obtain ⟨taken, split, stands⟩ := reaches
  have behind : entry.offset = taken.length := by
    rw [offset, stands]
    simp [cursorAt, Cursor.offset, Cursor.after]
  have same : unit.cursorAt entry.offset = place := by
    have ahead : unit.data = taken ++ place.rest := split
    rw [behind, stands]
    simp [cursorAt, Cursor.after, ahead]
  rw [same]
  exact reads

theorem isNull_eq_false (decoded : DecodedAt sections start unit) (member : entry ∈ unit.entries)
    (tagged : entry.tag ≠ .null) : entry.isNull = false := by
  obtain ⟨_, reads⟩ := decoded.item_run member
  obtain ⟨_, _, _, body⟩ := Decoder.run_bind_eq_ok.mp reads
  exact Bool.eq_false_iff.mpr fun isNull => tagged (EntryBody.tag_of_isNull body isNull)

end DecodedAt

/-- The entry has an attribute of this declaration at the place, behind its code and the attributes
that are declared in front of it, none of which has the same name. -/
structure Writes (unit : CompileUnit) (strings : Bytes) (entry : Entry)
    (front : List AttributeDeclaration) (declaration : AttributeDeclaration) (place : Cursor) :
    Prop where
  declared : ∃ layout others, unit.abbreviations.find? entry.code = some layout ∧
    layout.attributes = front ++ declaration :: others
  first : ∀ other ∈ front, other.name ≠ declaration.name
  behind : ∃ earlier, (do
    let _ ← Decoder.unsigned
    front.mapM (Attribute.decoder (unit.attributeContext strings))).run
      (unit.cursorAt entry.offset) = .ok (earlier, place)

/-- An attribute is what its bytes are read as at its place. -/
theorem DecodedAt.attribute_of_writes {front : List AttributeDeclaration}
    {declaration : AttributeDeclaration} {place : Cursor}
    (decoded : DecodedAt sections start unit) (member : entry ∈ unit.entries)
    (notNull : entry.isNull = false) (writes : unit.Writes sections.strings entry front declaration
      place) :
    ∃ found next, (Attribute.decoder (unit.attributeContext sections.strings) declaration).run
      place = .ok (found, next) ∧ entry.attribute? declaration.name = some found := by
  obtain ⟨layout, others, declared, split⟩ := writes.declared
  obtain ⟨earlier, stands⟩ := writes.behind
  obtain ⟨_, _, codeReads, frontReads⟩ := Decoder.run_bind_eq_ok.mp stands
  obtain ⟨_, reads⟩ := decoded.item_run member
  obtain ⟨layout', behind, codeReads', declared', reads⟩ :=
    EntryBody.attributes_of_item reads notNull
  rw [declared] at declared'
  cases declared'
  rw [codeReads] at codeReads'
  cases codeReads'
  rw [split] at reads
  obtain ⟨found, next, later, readsFound, attributes⟩ := Decoder.mapM_split reads frontReads
  refine ⟨found, next, readsFound, ?_⟩
  have passed : ∀ other ∈ earlier, other.name ≠ declaration.name := by
    intro other isEarlier
    have named := List.mem_map_of_mem isEarlier (f := Attribute.name)
    rw [Attribute.names_of_run frontReads] at named
    obtain ⟨declared, inFront, same⟩ := List.mem_map.mp named
    exact same ▸ writes.first declared inFront
  unfold EntryBody.attribute?
  rw [attributes, List.find?_append, List.find?_eq_none.mpr (by simpa using passed),
    Option.none_or, List.find?_cons_of_pos (by simp [Attribute.name_of_run readsFound])]

end CompileUnit

end Symbolication
