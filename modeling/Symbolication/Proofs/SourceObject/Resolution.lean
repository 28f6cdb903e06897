import Symbolication.Proofs.SourceObject.Decoding
import Symbolication.Proofs.UnitCache.Session

/-!
Addresses resolved in a laid out object: every address leads where the object says it comes from,
whatever has been asked before.
-/

namespace Symbolication

theorem CodeExtent.contains_range (extent : CodeExtent) (address : UInt64) :
    CoveredRange.contains { segment := 0, address := extent.start, length := extent.length }
      address = extent.contains address := by
  unfold CoveredRange.contains CodeExtent.contains
  dsimp only
  by_cases reached : extent.start ≤ address
  · have before := UInt64.le_iff_toNat_le.mp reached
    have distance := UInt64.toNat_sub_of_le _ _ reached
    simp only [reached, before, decide_true, Bool.true_and, decide_eq_decide]
    rw [UInt64.lt_iff_toNat_lt, distance]
    omega
  · have behind : ¬extent.start.toNat ≤ address.toNat :=
      fun before => reached (UInt64.le_iff_toNat_le.mpr before)
    simp only [reached, behind, decide_false, Bool.false_and]

theorem CodeExtent.contains_addressRange {extent : CodeExtent}
    (bounded : extent.start.toNat + extent.length.toNat < 2 ^ 64) (address : UInt64) :
    AddressRange.contains { start := extent.start, stop := extent.start + extent.length } address =
      extent.contains address := by
  have stop : (extent.start + extent.length).toNat =
      extent.start.toNat + extent.length.toNat := by
    rw [UInt64.toNat_add]
    exact Nat.mod_eq_of_lt bounded
  unfold AddressRange.contains CodeExtent.contains
  simp only [UInt64.le_iff_toNat_le, UInt64.lt_iff_toNat_lt, stop]

namespace PlacedUnit

theorem any_rangeSet (placed : PlacedUnit) (address : UInt64) :
    placed.rangeSet.ranges.any (·.contains address) = placed.unit.covers address := by
  unfold rangeSet SourceUnit.covers
  simp only [List.any_map, Function.comp_def, CodeExtent.contains_range]

theorem rangeSet_wellFormed {strings : Bytes} {placed : PlacedUnit}
    (unitFormed : placed.unit.WellFormed) (measurable : placed.Measurable strings) :
    placed.rangeSet.WellFormed where
  unitOffset := measurable.info
  padding := List.length_replicate
  fits := by
    unfold rangeSet
    dsimp only
    rw [List.forall_mem_map]
    intro extent member
    obtain ⟨start, length⟩ := unitFormed.coverage extent member
    exact ⟨Nat.one_pos, start, length⟩
  nonzero := by
    unfold rangeSet
    dsimp only
    rw [List.forall_mem_map]
    intro extent member isZero
    exact unitFormed.claims extent member isZero.2
  length := measurable.rangesLength

end PlacedUnit

namespace AddressIndex

theorem unitOffset?_place (units : List PlacedUnit) (offset : Nat) (address : UInt64) :
    unitOffset? { sets := WrittenRangeSet.place offset (units.map PlacedUnit.rangeSet) } address =
      (units.find? (·.unit.covers address)).map (·.place.info) := by
  induction units generalizing offset with
  | nil => rfl
  | cons placed units induction =>
      have others := induction (offset + placed.rangeSet.encode.length)
      unfold unitOffset? at others ⊢
      have first : (placed.rangeSet.placedAt offset).ranges.any (·.contains address) =
          placed.unit.covers address := placed.any_rangeSet address
      rw [List.map_cons, WrittenRangeSet.place, List.find?_cons, List.find?_cons, first]
      cases placed.unit.covers address with
      | true => rfl
      | false => exact others

end AddressIndex

namespace SourceObject

variable {object : SourceObject} {front back : List PlacedUnit} {placed : PlacedUnit}

/-- The image of the sections: its index has the set of every unit, at its place. -/
def image (object : SourceObject) : DebugImage where
  sections := object.sections
  index := { sets := WrittenRangeSet.place 0 (object.placed.map PlacedUnit.rangeSet) }

theorem ofSections_eq_ok (wellFormed : object.WellFormed) :
    DebugImage.ofSections object.sections = .ok object.image := by
  have sets : ∀ set ∈ object.placed.map PlacedUnit.rangeSet, set.WellFormed := by
    rw [List.forall_mem_map]
    intro placed member
    obtain ⟨front, back, split⟩ := List.append_of_mem member
    exact PlacedUnit.rangeSet_wellFormed (wellFormed.units placed.unit (unit_mem split))
      (wellFormed.measures placed member)
  have index := AddressIndex.decode_encode _ sets
  unfold DebugImage.ofSections
  change (AddressIndex.decode ((object.placed.map PlacedUnit.rangeSet).flatMap
    WrittenRangeSet.encode) >>= _) = _
  rw [index]
  rfl

end SourceObject

namespace CompileUnit

theorem contiguousCode_of_constant {entry : Entry} {start length : UInt64} {high : Attribute}
    (low : (entry.value? .lowAddress).bind AttributeValue.address? = some start)
    (hasHigh : entry.attribute? .highAddress = some high)
    (constant : high.form.formClass = .constant) (number : high.value.number? = some length) :
    contiguousCode entry = [{ start, stop := start + length }] := by
  unfold contiguousCode
  rw [low, hasHigh]
  dsimp only
  rw [Form.formClass?_code, constant, number]
  rfl

/-- Whether an entry without a range list is a subprogram that covers the address. -/
def isFunctionAt (address : UInt64) (entry : Entry) : Bool :=
  decide (entry.tag = .subprogram) && (contiguousCode entry).any (·.contains address)

theorem coversAddress_eq_ok {unit : CompileUnit} {rangeLists : Bytes} {address : UInt64}
    {entry : Entry} (contiguous : entry.value? .ranges = none) :
    unit.coversAddress rangeLists address entry = .ok (isFunctionAt address entry) := by
  unfold coversAddress isFunctionAt code
  rw [contiguous]
  by_cases subprogram : entry.tag = .subprogram
  · rw [if_pos subprogram, decide_eq_true subprogram, Bool.true_and]
    rfl
  · rw [if_neg subprogram, decide_eq_false subprogram, Bool.false_and]

theorem firstIndex?_eq_ok {test : Entry → Except DecodeError Bool} {holds : Entry → Bool}
    {entries : List Entry} (agrees : ∀ entry ∈ entries, test entry = .ok (holds entry))
    (index : Nat) :
    firstIndex? test index entries = .ok ((entries.findIdx? holds).map (· + index)) := by
  induction entries generalizing index with
  | nil => rfl
  | cons entry entries induction =>
      rw [List.forall_mem_cons] at agrees
      rw [firstIndex?, agrees.1, List.findIdx?_cons]
      cases holds entry with
      | true => simp
      | false =>
          dsimp only
          rw [induction agrees.2, if_neg Bool.false_ne_true, Option.map_map]
          congr 2
          funext other
          simp only [Function.comp_apply]
          omega

/-- Where functions have names of their own, no other unit is needed to name one. -/
theorem run_functionAt [LinkageNames] {unit : CompileUnit} {address : UInt64}
    (contiguous : ∀ entry ∈ unit.entries, entry.value? .ranges = none)
    (named : ∀ entry ∈ unit.entries, isFunctionAt address entry = true →
      ∃ name, entry.name? = some name)
    (containing? : Nat → Lookup (Option CompileUnit)) (rangeLists : Bytes) (cache : UnitCache) :
    (unit.functionAt containing? rangeLists address).run.run cache =
      (.ok ((unit.entries.find? (isFunctionAt address)).bind (·.name?)), cache) := by
  have agrees : ∀ entry ∈ unit.entries,
      unit.coversAddress rangeLists address entry = .ok (isFunctionAt address entry) :=
    fun entry member => coversAddress_eq_ok (contiguous entry member)
  have search : unit.subprogramAt? rangeLists address =
      .ok (unit.entries.findIdx? (isFunctionAt address)) := by
    unfold subprogramAt?
    rw [firstIndex?_eq_ok agrees]
    simp
  unfold functionAt
  rw [search, List.find?_eq_bind_findIdx?_getElem?]
  cases found : unit.entries.findIdx? (isFunctionAt address) with
  | none => rfl
  | some index =>
      obtain ⟨bound, holds, _⟩ := List.findIdx?_eq_some_iff_getElem.mp found
      obtain ⟨name, ownName⟩ := named _ (List.getElem_mem bound) holds
      have entry : unit.entries[index]? = some unit.entries[index] := List.getElem?_eq_getElem bound
      change (unit.functionName containing? index).run.run cache = _
      unfold functionName
      rw [Option.bind_some, entry]
      dsimp only
      rw [Option.bind_some, ownName]
      rfl

end CompileUnit

namespace SourceFunction

variable {address : UInt64} {nameOffset offset index : Nat} {parent : Option Nat}

theorem number?_ofNumber (value : UInt64) :
    (AttributeValue.data (Bytes.ofNumber 8 value.toNat)).number? = some value := by
  have fits : value.toNat < 256 ^ 8 := value.toNat_lt
  have constant := Bytes.constant?_ofNumber (by decide : 8 ∈ [1, 2, 4, 8]) fits
  rwa [UInt64.ofNat_toNat] at constant

theorem isFunctionAt_entry {function : SourceFunction}
    (bounded : function.code.start.toNat + function.code.length.toNat < 2 ^ 64) :
    CompileUnit.isFunctionAt address
        (functionLayout.entry (function.values nameOffset) offset parent) =
      function.code.contains address := by
  have code : CompileUnit.contiguousCode
      (functionLayout.entry (function.values nameOffset) offset parent) =
      [{ start := function.code.start, stop := function.code.start + function.code.length }] :=
    CompileUnit.contiguousCode_of_constant rfl rfl rfl (number?_ofNumber _)
  have subprogram : (functionLayout.entry (function.values nameOffset) offset parent).tag =
      .subprogram := rfl
  unfold CompileUnit.isFunctionAt
  rw [code, decide_eq_true subprogram, Bool.true_and, List.any_cons, List.any_nil, Bool.or_false]
  exact CodeExtent.contains_addressRange bounded address

theorem find?_entries {context : AttributeContext} {functions : List SourceFunction}
    (bounded : ∀ function ∈ functions,
      function.code.start.toNat + function.code.length.toNat < 2 ^ 64) :
    (((forest nameOffset functions).entries context offset index parent).find?
        (CompileUnit.isFunctionAt address)).bind (·.name?) =
      (functions.find? (·.code.contains address)).map (·.name) := by
  induction functions generalizing nameOffset offset index with
  | nil => rfl
  | cons function functions induction =>
      rw [List.forall_mem_cons] at bounded
      rw [forest, EntryForest.entries, List.find?_cons, List.find?_cons,
        isFunctionAt_entry bounded.1]
      cases function.code.contains address with
      | true => rfl
      | false => exact induction bounded.2

theorem mem_entries {context : AttributeContext} {functions : List SourceFunction} {entry : Entry}
    (member : entry ∈ (forest nameOffset functions).entries context offset index parent) :
    ∃ function nameOffset offset,
      entry = functionLayout.entry (SourceFunction.values function nameOffset) offset parent := by
  induction functions generalizing nameOffset offset index with
  | nil => cases member
  | cons function functions induction =>
      rw [forest, EntryForest.entries, List.mem_cons] at member
      rcases member with isFirst | isLater
      · exact ⟨function, nameOffset, offset, isFirst⟩
      · exact induction isLater

end SourceFunction

namespace PlacedUnit

variable {strings : Bytes} {placed : PlacedUnit} {entry : Entry}

/-- The entry of the unit comes first, and behind those of its functions the scope is closed. -/
theorem mem_entries (member : entry ∈ placed.entries strings) :
    entry = unitLayout.entry placed.values 0 none ∨
      (∃ function nameOffset offset,
        entry = functionLayout.entry (SourceFunction.values function nameOffset) offset (some 0)) ∨
      (∃ offset, entry = .closing offset 0) := by
  unfold entries forest at member
  simp only [EntryForest.entries, List.mem_cons, List.mem_append, List.not_mem_nil, or_false]
    at member
  rcases member with isUnit | isFunction | isClosing
  · exact .inl isUnit
  · exact .inr (.inl (SourceFunction.mem_entries isFunction))
  · exact .inr (.inr ⟨_, isClosing⟩)

theorem entries_contiguous : ∀ entry ∈ placed.entries strings, entry.value? .ranges = none := by
  intro entry member
  rcases mem_entries member with rfl | ⟨function, nameOffset, offset, rfl⟩ | ⟨offset, rfl⟩
  · rfl
  · rfl
  · rfl

theorem entries_named (address : UInt64) : ∀ entry ∈ placed.entries strings,
    CompileUnit.isFunctionAt address entry = true → ∃ name, entry.name? = some name := by
  intro entry member covered
  rcases mem_entries member with rfl | ⟨function, nameOffset, offset, rfl⟩ | ⟨offset, rfl⟩
  · cases covered
  · exact ⟨function.name, rfl⟩
  · cases covered

theorem find?_entries (wellFormed : placed.unit.WellFormed) (address : UInt64) :
    ((placed.entries strings).find? (CompileUnit.isFunctionAt address)).bind (·.name?) =
      placed.unit.functionAt? address := by
  have unitMisses :
      CompileUnit.isFunctionAt address (unitLayout.entry placed.values 0 none) = false := rfl
  have closingMisses (offset : Nat) :
      CompileUnit.isFunctionAt address (.closing offset 0) = false := rfl
  unfold entries forest
  rw [EntryForest.entries, List.find?_cons, unitMisses]
  dsimp only
  rw [List.find?_append, List.find?_cons, closingMisses, EntryForest.entries, List.find?_nil,
    Option.or_none]
  exact SourceFunction.find?_entries wellFormed.ends

end PlacedUnit

theorem SourceSequence.mem_of_rowAt? {sequence : SourceSequence} {address : UInt64}
    {row : SourceRow} (found : sequence.rowAt? address = some row) : row ∈ sequence.rows := by
  unfold rowAt? lastRowAt? at found
  split at found
  · exact List.mem_of_mem_filter (List.mem_of_getLast? found)
  · cases found

namespace SourceUnit

variable {unit : SourceUnit} {address : UInt64} {row : SourceRow}

theorem path?_of_rowAt? (wellFormed : unit.WellFormed) (found : unit.rowAt? address = some row) :
    ∃ path, unit.path? row = some path := by
  obtain ⟨sequence, member, rowFound⟩ := List.exists_of_findSome?_eq_some found
  have fits := wellFormed.rows sequence member row (SourceSequence.mem_of_rowAt? rowFound)
  have bound : row.file.toNat - 1 < unit.files.length := by
    have positive := fits.file_pos
    have below := fits.file_le
    change 0 < row.file.toNat at positive
    change row.file.toNat ≤ unit.files.length at below
    omega
  refine ⟨FileEntry.path unit.directories unit.files[row.file.toNat - 1], ?_⟩
  unfold path?
  rw [List.getElem?_eq_getElem bound]
  rfl

end SourceUnit

namespace LineTable

variable {table : LineTable} {placed : PlacedUnit} {address : UInt64}

theorem locate?_placed (wellFormed : placed.unit.WellFormed)
    (paths : table.paths = placed.unit.files.map (FileEntry.path placed.unit.directories))
    (rows : table.rows = placed.rows.map WrittenRow.lineRow) :
    table.locate? address = (placed.unit.rowAt? address).bind fun row =>
      (placed.unit.path? row).map fun path => (row.written.lineRow, path) := by
  have search : findRow? address table.rows =
      (placed.unit.rowAt? address).map (·.written.lineRow) := by
    rw [rows]
    exact findRow?_sequences wellFormed.ascending address
  cases found : placed.unit.rowAt? address with
  | none =>
      rw [found] at search
      exact locate?_eq_none search
  | some row =>
      rw [found] at search
      obtain ⟨path, named⟩ := SourceUnit.path?_of_rowAt? wellFormed found
      rw [Option.bind_some, named]
      apply locate?_eq_some search
      rw [paths, List.getElem?_map]
      exact named

end LineTable

theorem Lookup.run_bind_of_ok {α β : Type} {lookup : Lookup α} {continuation : α → Lookup β}
    {cache cache' : UnitCache} {value : α} (answers : lookup.run.run cache = (.ok value, cache')) :
    (lookup >>= continuation).run.run cache = (continuation value).run.run cache' := by
  change (match lookup.run.run cache with
    | (answer, cache') => (ExceptT.bindCont continuation answer).run cache') = _
  rw [answers]
  rfl

namespace SourceObject

variable {object : SourceObject}

theorem find?_units (object : SourceObject) (address : UInt64) :
    object.units.find? (·.covers address) =
      (object.placed.find? (·.unit.covers address)).map (·.unit) := by
  rw [← object.placed_map_unit, List.find?_map]
  rfl

theorem resolve_of_sound [LinkageNames] (wellFormed : object.WellFormed) {cache : UnitCache}
    (sound : cache.Sound object.image) (address : UInt64) :
    ((object.image.resolve address).run.run cache).1 = .ok (object.locate? address) := by
  have index : object.image.index.unitOffset? address =
      (object.placed.find? (·.unit.covers address)).map (·.place.info) :=
    AddressIndex.unitOffset?_place object.placed 0 address
  unfold DebugImage.resolve DebugImage.resolveWith locate?
  rw [index, find?_units]
  cases found : object.placed.find? (·.unit.covers address) with
  | none => rfl
  | some placed =>
      obtain ⟨front, back, split⟩ := List.append_of_mem (List.mem_of_find?_eq_some found)
      have unitFormed := wellFormed.units placed.unit (unit_mem split)
      obtain ⟨unit, table, decodes, entries, hasTable, paths, rows⟩ :=
        decode_placed wellFormed split
      -- Whether the unit is decoded now or was before, it is the one that was placed.
      have answer := (object.image.run_unit_of_sound sound placed.place.info).1.trans decodes
      have fetched : (object.image.unit placed.place.info).run.run cache = (.ok unit, _) :=
        Prod.ext answer rfl
      dsimp only [Option.map_some, Option.bind_some]
      rw [Lookup.run_bind_of_ok fetched, hasTable, Option.bind_some,
        LineTable.locate?_placed unitFormed paths rows]
      cases rowFound : placed.unit.rowAt? address with
      | none =>
          have missed : placed.unit.locate? address = none := by
            unfold SourceUnit.locate?
            rw [rowFound]
            rfl
          rw [missed]
          rfl
      | some row =>
          obtain ⟨path, named⟩ := SourceUnit.path?_of_rowAt? unitFormed rowFound
          have located : placed.unit.locate? address =
              some { address, file := path, line := row.line
                     function := placed.unit.functionAt? address } := by
            unfold SourceUnit.locate?
            rw [rowFound]
            change (placed.unit.path? row).bind _ = _
            rw [named]
            rfl
          have function := unit.run_functionAt
            (fun entry member => placed.entries_contiguous entry (entries ▸ member))
            (fun entry member => placed.entries_named address entry (entries ▸ member))
            (object.image.containingWith object.image.unit) object.image.sections.rangeLists
            ((object.image.unit placed.place.info).run.run cache).2
          rw [entries, placed.find?_entries unitFormed] at function
          rw [located, Option.bind_some, named]
          exact congrArg Prod.fst (Lookup.run_bind_of_ok function)

/-- A laid out object opens as an image, and every address is resolved there to where the object
says it comes from, after any session. -/
theorem resolve_locates [LinkageNames] (object : SourceObject) (wellFormed : object.WellFormed) :
    ∃ image, DebugImage.ofSections object.sections = .ok image ∧
      ∀ (operations : List Operation) (address : UInt64),
        ((image.resolve address).run.run (image.sessionCache operations)).1 =
          .ok (object.locate? address) :=
  ⟨object.image, ofSections_eq_ok wellFormed, fun operations address =>
    resolve_of_sound wellFormed (object.image.sessionCache_sound operations) address⟩

/-- A unit of the newest version with wide addresses, whose file is in a directory. -/
def sampleFirst : SourceUnit where
  version := .four
  addressWidth := .eight
  baseAddress := 0x1000
  directories := ["src"]
  files := [{ name := "a.c", directory := 1, modified := 0, size := 0 }]
  sequences := [
    { first := { address := 0x1000, file := 1, line := 10, column := 0, isStatement := true }
      later := [{ address := 0x1010, file := 1, line := 7, column := 4, isStatement := false }]
      stop := 0x2000 }]
  functions := [{ name := "first", code := { start := 0x1000, length := 0x1000 } }]
  coverage := [{ start := 0x1000, length := 0x1000 }]

/-- A unit of the oldest version with narrow addresses, and code that belongs to no function. -/
def sampleSecond : SourceUnit where
  version := .two
  addressWidth := .four
  baseAddress := 0x5000
  directories := []
  files := [{ name := "b.c", directory := 0, modified := 0, size := 0 }]
  sequences := [
    { first := { address := 0x5000, file := 1, line := 20, column := 0, isStatement := true }
      later := []
      stop := 0x6000 }]
  functions := [{ name := "last", code := { start := 0x5000, length := 0x800 } }]
  coverage := [{ start := 0x5000, length := 0x1000 }]

def sample : SourceObject where
  units := [sampleFirst, sampleSecond]

theorem sample_wellFormed : sample.WellFormed where
  units := by
    unfold sample
    rw [List.forall_mem_cons, List.forall_mem_singleton]
    constructor
    · constructor <;> decide
    · constructor <;> decide
  measures := by decide +kernel
  strings := by decide +kernel

section Samples

open scoped LinkageNames

theorem resolve_locates_sample :
    ∃ image, DebugImage.ofSections sample.sections = .ok image ∧
      ((image.resolve 0x1018).run.run .empty).1 =
        .ok (some { address := 0x1018, file := "src/a.c", line := 7, function := some "first" }) ∧
      ((image.resolve 0x5900).run.run .empty).1 =
        .ok (some { address := 0x5900, file := "b.c", line := 20, function := none }) ∧
      ((image.resolve 0x3000).run.run .empty).1 = .ok none := by
  obtain ⟨image, opens, resolves⟩ := resolve_locates sample sample_wellFormed
  exact ⟨image, opens, resolves [] 0x1018, resolves [] 0x5900, resolves [] 0x3000⟩

end Samples

end SourceObject

end Symbolication
