import Symbolication.Proofs.Checked.CompileUnit
import Symbolication.Proofs.DebugImage.Search

/-!
Lookups with checked operations. They fetch units as the lookups do, so what is left to compare is
the search, where an offset of the section is turned into one of a unit, and a row into its path.
-/

namespace Symbolication

/-- A lookup that stops where an operation is out of range. -/
abbrev CheckedLookup := ExceptT DecodeError (StateT UnitCache Checked)

namespace CheckedLookup

variable {α β : Type}

theorem stateless_eq {program : ExceptT DecodeError Checked α} {result : Except DecodeError α}
    (settles : Settles Eq program result) :
    (Checked.stateless program : CheckedLookup α) = monadLift result := by
  unfold Checked.stateless
  rw [Settles.eq_iff.mp settles]
  rfl

/-- An operation in range is the value that it has. -/
theorem checked_bind {operation : Checked α} {value : α} {continuation : α → CheckedLookup β}
    (inRange : operation = .ok value) :
    ((liftM operation : CheckedLookup α) >>= continuation) = continuation value := by
  rw [inRange]
  rfl

/-- The checked lookup never stops, and leaves the same answer and the same units as the other. -/
def relation : MonadRelation CheckedLookup Lookup where
  Related program lookup :=
    ∀ cache : UnitCache, program.run.run cache = .ok (lookup.run.run cache)
  pure _ _ := rfl
  bind := by
    intro α β program lookup continuation' continuation related relatedNext cache
    rw [ExceptT.run_bind, StateT.run_bind, related cache]
    rw [ExceptT.run_bind, StateT.run_bind]
    obtain ⟨result, next⟩ := lookup.run.run cache
    cases result with
    | error error => rfl
    | ok value => exact relatedNext value next

theorem monadLift_related (result : Except DecodeError α) :
    relation.Related (monadLift result : CheckedLookup α) (monadLift result : Lookup α) := by
  intro cache
  cases result <;> rfl

end CheckedLookup

namespace CompileUnit

variable (containing? : Nat → CheckedLookup (Option CompileUnit))

def resolveReferenceChecked (unit : CompileUnit) :
    AttributeValue → CheckedLookup (Option (CompileUnit × Nat))
  | .unitReference offset => pure ((unit.indexAtUnitOffset? offset).map fun index => (unit, index))
  | .sectionReference offset =>
      if unit.header.contains offset then do
        let index? ← (unit.indexAtSectionOffsetChecked offset : Checked (Option Nat))
        pure (index?.map fun index => (unit, index))
      else do
        match ← containing? offset with
        | none => pure none
        | some other => do
            let index? ← (other.indexAtSectionOffsetChecked offset : Checked (Option Nat))
            pure (index?.map fun index => (other, index))
  | _ => pure none

def nameWithinHopsChecked : Nat → CompileUnit → Nat → CheckedLookup (Option String)
  | 0, _, _ => pure none
  | hops + 1, unit, index =>
      match (unit.entries[index]?).bind declaration? with
      | none => pure none
      | some reference => do
          match ← resolveReferenceChecked containing? unit reference with
          | none => pure none
          | some (target, position) =>
              match (target.entries[position]?).bind (·.name?) with
              | some name => pure (some (target.qualify position name))
              | none => nameWithinHopsChecked hops target position

def functionNameChecked [LinkageNames] (unit : CompileUnit) (index : Nat) :
    CheckedLookup (Option String) :=
  match unit.entries[index]? with
  | none => pure none
  | some entry =>
      match entry.name? with
      | some name => pure (some name)
      | none => do
          match ← nameWithinHopsChecked containing? maximumHops unit index with
          | some name => pure (some name)
          | none => pure (linkageName? entry)

def functionAtChecked [LinkageNames] (unit : CompileUnit) (rangeLists : Bytes)
    (address : UInt64) : CheckedLookup (Option String) := do
  match ← Checked.stateless (unit.subprogramAtChecked rangeLists address) with
  | none => pure none
  | some index => functionNameChecked containing? unit index

theorem resolveReferenceChecked_eq (unit : CompileUnit) (reference : AttributeValue) :
    resolveReferenceChecked containing? unit reference =
      resolveReference containing? unit reference := by
  cases reference with
  | sectionReference offset =>
      unfold resolveReferenceChecked resolveReference
      dsimp only
      split
      · exact CheckedLookup.checked_bind (unit.indexAtSectionOffsetChecked_eq offset)
      · apply bind_congr
        intro other?
        cases other? with
        | none => rfl
        | some other =>
            exact CheckedLookup.checked_bind (other.indexAtSectionOffsetChecked_eq offset)
  | _ => rfl

theorem nameWithinHopsChecked_eq (hops : Nat) (unit : CompileUnit) (index : Nat) :
    nameWithinHopsChecked containing? hops unit index =
      nameWithinHops containing? hops unit index := by
  induction hops generalizing unit index with
  | zero => rfl
  | succ hops induction =>
      unfold nameWithinHopsChecked nameWithinHops
      cases (unit.entries[index]?).bind declaration? with
      | none => rfl
      | some reference =>
          dsimp only
          rw [resolveReferenceChecked_eq]
          apply bind_congr
          rintro (_ | ⟨target, position⟩)
          · rfl
          · dsimp only
            cases (target.entries[position]?).bind (·.name?) with
            | some name => rfl
            | none => exact induction target position

variable [LinkageNames]

theorem functionNameChecked_eq (unit : CompileUnit) (index : Nat) :
    functionNameChecked containing? unit index = unit.functionName containing? index := by
  unfold functionNameChecked functionName
  cases unit.entries[index]? with
  | none => rfl
  | some entry =>
      dsimp only
      cases entry.name? with
      | some name => rfl
      | none =>
          exact congrArg (· >>= _)
            (nameWithinHopsChecked_eq containing? maximumHops unit index)

theorem functionAtChecked_eq (unit : CompileUnit) (rangeLists : Bytes) (address : UInt64) :
    functionAtChecked containing? unit rangeLists address =
      unit.functionAt containing? rangeLists address := by
  unfold functionAtChecked functionAt
  rw [CheckedLookup.stateless_eq (unit.subprogramAtChecked_settles rangeLists address)]
  apply bind_congr
  intro index?
  cases index? with
  | none => rfl
  | some index => exact functionNameChecked_eq containing? unit index

end CompileUnit

namespace DebugImage

def ofSectionsChecked (sections : DebugSections) : ExceptT DecodeError Checked DebugImage := do
  let index ← AddressIndex.decodeChecked sections.addressRanges
  pure { sections, index }

def unitChecked (image : DebugImage) (offset : Nat) : CheckedLookup CompileUnit := do
  match (← get).find? offset with
  | some unit => pure unit
  | none => do
      let unit ← Checked.stateless (CompileUnit.decodeChecked image.sections offset)
      modify UnitCache.raise
      modify (·.insert offset unit)
      pure unit

def unitContainingChecked (image : DebugImage) (offset : Nat) :
    CheckedLookup (Option CompileUnit) := do
  match ← Checked.stateless (UnitHeader.containingChecked image.sections.info offset) with
  | none => pure none
  | some header => some <$> image.unitChecked header.offset

def resolveChecked [LinkageNames] (image : DebugImage) (address : UInt64) :
    CheckedLookup (Option Location) := do
  match ← (image.index.unitOffsetChecked address : Checked (Option Nat)) with
  | none => pure none
  | some offset => do
      let unit ← image.unitChecked offset
      match unit.lineTable with
      | none => pure none
      | some table => do
          match ← (table.locateChecked address : Checked (Option (LineRow × String))) with
          | none => pure none
          | some (row, file) => do
              let function ← unit.functionAtChecked image.unitContainingChecked
                image.sections.rangeLists address
              pure (some { address, file, line := row.line, function })

theorem ofSectionsChecked_settles (sections : DebugSections) :
    Settles Eq (ofSectionsChecked sections) (ofSections sections) := by
  apply (AddressIndex.decodeChecked_settles sections.addressRanges).bind
  rintro index _ _ rfl
  exact .pure rfl

theorem unitChecked_related (image : DebugImage) (offset : Nat) :
    CheckedLookup.relation.Related (image.unitChecked offset) (image.unit offset) := by
  have kept : CheckedLookup.relation.Related (get : CheckedLookup UnitCache)
      (get : Lookup UnitCache) := fun _ => rfl
  apply CheckedLookup.relation.bind kept
  intro cache
  cases cache.find? offset with
  | some unit => exact CheckedLookup.relation.pure unit
  | none =>
      dsimp only
      rw [CheckedLookup.stateless_eq (CompileUnit.decodeChecked_settles image.sections offset)]
      apply CheckedLookup.relation.bind (CheckedLookup.monadLift_related _)
      intro unit
      have modified (change : UnitCache → UnitCache) : CheckedLookup.relation.Related
          (modify change : CheckedLookup Unit) (modify change : Lookup Unit) := fun _ => rfl
      apply CheckedLookup.relation.bind (modified UnitCache.raise)
      intro _
      exact CheckedLookup.relation.bind (modified (·.insert offset unit)) fun _ =>
        CheckedLookup.relation.pure unit

theorem unitContainingChecked_eq (image : DebugImage) (offset : Nat) :
    image.unitContainingChecked offset = image.containingWith image.unitChecked offset :=
  congrArg (· >>= _)
    (CheckedLookup.stateless_eq (UnitHeader.containingChecked_settles image.sections.info offset))

theorem functionAtChecked_eq [LinkageNames] (image : DebugImage) (unit : CompileUnit)
    (address : UInt64) :
    unit.functionAtChecked image.unitContainingChecked image.sections.rangeLists address =
      image.functionAtWith image.unitChecked unit address := by
  have containing : image.unitContainingChecked = image.containingWith image.unitChecked :=
    funext image.unitContainingChecked_eq
  rw [containing]
  exact CompileUnit.functionAtChecked_eq _ unit _ address

theorem resolveChecked_eq [LinkageNames] (image : DebugImage) (address : UInt64) :
    image.resolveChecked address = image.resolveWith image.unitChecked address := by
  unfold resolveChecked resolveWith
  rw [CheckedLookup.checked_bind (image.index.unitOffsetChecked_eq address)]
  cases image.index.unitOffset? address with
  | none => rfl
  | some offset =>
      apply bind_congr
      intro unit
      cases unit.lineTable with
      | none => rfl
      | some table =>
          dsimp only
          rw [CheckedLookup.checked_bind (table.locateChecked_eq address), Option.bind_some]
          cases table.locate? address with
          | none => rfl
          | some found =>
              exact congrArg (· >>= _) (image.functionAtChecked_eq unit address)

theorem unitContainingChecked_related (image : DebugImage) (offset : Nat) :
    CheckedLookup.relation.Related (image.unitContainingChecked offset)
      (image.unitContaining offset) := by
  rw [unitContainingChecked_eq]
  exact containingWith_related _ image.unitChecked_related offset
    (CheckedLookup.monadLift_related _)

theorem resolveChecked_related [LinkageNames] (image : DebugImage) (address : UInt64) :
    CheckedLookup.relation.Related (image.resolveChecked address) (image.resolve address) := by
  rw [resolveChecked_eq]
  apply resolveWith_related _ image.unitChecked_related
  intro unit
  apply CompileUnit.functionAt_related
  · intro offset
    exact containingWith_related _ image.unitChecked_related offset
      (CheckedLookup.monadLift_related _)
  · exact CheckedLookup.monadLift_related _

/-- Whatever the sections hold, opening them and looking units and addresses up never uses an
operation out of range: with every slice, index, copy, division, subtraction and shift checked, and
every loop held to the rounds that its bytes allow, the answers are the same and no check fails. The
checks that this rests on are made where headers are read, for every header that is accepted. -/
theorem never_out_of_bounds [LinkageNames] (sections : DebugSections) :
    (ofSectionsChecked sections).run = .ok (ofSections sections) ∧
    (∀ (image : DebugImage) (cache : UnitCache) (offset : Nat),
      (image.unitChecked offset).run.run cache = .ok ((image.unit offset).run.run cache) ∧
      (image.unitContainingChecked offset).run.run cache =
        .ok ((image.unitContaining offset).run.run cache)) ∧
    (∀ (image : DebugImage) (cache : UnitCache) (address : UInt64),
      (image.resolveChecked address).run.run cache =
        .ok ((image.resolve address).run.run cache)) ∧
    (∀ (offset : Nat) (header : UnitHeader),
      UnitHeader.decode sections.info offset = .ok header →
        header.offset + UnitHeader.size ≤ header.stop ∧ header.stop ≤ sections.info.length) ∧
    (∀ (offset : Nat) (header : LineHeader) (program : Cursor),
      LineHeader.decoder.runAt .lines sections.lines offset = .ok (header, program) →
        header.Sound) ∧
    (∀ (offset : Nat) (addressSize : UInt8) (table : LineTable),
      LineTable.decode sections.lines offset addressSize = .ok table →
        ∀ row ∈ table.rows, row.file < table.paths.length) := by
  refine ⟨Settles.eq_iff.mp (ofSectionsChecked_settles sections), ?units, ?addresses, ?headers,
    ?programs, ?tables⟩
  case units =>
    intro image cache offset
    exact ⟨image.unitChecked_related offset cache, image.unitContainingChecked_related offset cache⟩
  case addresses =>
    intro image cache address
    exact image.resolveChecked_related address cache
  case headers =>
    intro offset header decoded
    rw [UnitHeader.offset_of_decode decoded]
    exact UnitHeader.bounds_of_decode decoded
  case programs =>
    intro offset header program decoded
    exact LineHeader.sound_of_runAt decoded
  case tables =>
    intro offset addressSize table _
    exact table.file_lt

/-- A unit without entries, and a line program behind two bytes of no meaning. -/
def boundedSections : DebugSections where
  info := [7, 0, 0, 0, 2, 0, 0, 0, 0, 0, 8]
  abbreviations := []
  addressRanges := []
  lines := [1, 2] ++ (LineTable.sampleHeader.encode [9]
    (WrittenRow.encodeProgram LineTable.sampleHeader .two LineTable.sampleRows) ++ [3])
  strings := []
  rangeLists := []

section Samples

open scoped LinkageNames

theorem never_out_of_bounds_sample :
    (ofSectionsChecked boundedSections).run = .ok (ofSections boundedSections) ∧
    (∃ header, UnitHeader.decode boundedSections.info 0 = .ok header ∧ header.stop ≤ 11) ∧
    (∃ header program,
      LineHeader.decoder.runAt .lines boundedSections.lines 2 = .ok (header, program) ∧
        header.lineRange ≠ 0 ∧ header.operandCounts.length = header.opcodeBase.toNat - 1) ∧
    (∃ table, LineTable.decode boundedSections.lines 2 2 = .ok table ∧
      table.rows.map (·.file) = [0, 2, 2, 1] ∧
        ∀ row ∈ table.rows, row.file < table.paths.length) := by
  obtain ⟨opens, -, -, headers, programs, tables⟩ := never_out_of_bounds boundedSections
  have wellFormed : LineTable.sampleHeader.WellFormed := by constructor <;> decide
  have short : (LineTable.sampleHeader.encodeHead [9] ++
      WrittenRow.encodeProgram LineTable.sampleHeader .two LineTable.sampleRows).length <
        0xfffffff0 := by
    decide +kernel
  obtain ⟨program, -, reads⟩ := LineHeader.decoder_reads wellFormed short
    (Cursor.offset_startingAt .lines 2 (boundedSections.lines.drop 2))
  have headerRead : LineHeader.decoder.runAt .lines boundedSections.lines 2 = .ok (_, program) :=
    reads.runAt (by decide +kernel) rfl
  have fits : ∀ row ∈ LineTable.sampleRows,
      row.Fits .two LineTable.sampleHeader.files.length := by
    decide
  obtain ⟨table, decoded, -, -, rows⟩ := LineTable.decode_written wellFormed (by decide)
    (by decide) fits short (rfl : boundedSections.lines.drop 2 = _)
  have files : table.rows.map (·.file) = [0, 2, 2, 1] := by
    rw [rows]
    rfl
  have sound := programs 2 _ program headerRead
  refine ⟨opens, ⟨_, rfl, (headers 0 _ rfl).2⟩, ⟨_, program, headerRead, sound.lineRange,
    sound.operandCounts⟩, ⟨table, decoded, files, tables 2 2 table decoded⟩⟩

end Samples

/-- A unit that is longer than its section, which no header that is decoded has. -/
example : (CompileUnit.ofHeaderChecked boundedSections
    { offset := 0, unitLength := 8, version := .two, abbreviationOffset := 0
      addressWidth := .eight }).run = .error .slice := by
  decide +kernel

end DebugImage

end Symbolication
