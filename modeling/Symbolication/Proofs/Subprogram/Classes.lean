import Symbolication.Proofs.CompileUnit.Decoding
import Symbolication.Proofs.Entry.Classes
import Symbolication.Proofs.Subprogram.Code

/-!
The classes of forms in decoded units. The search for a function tells by the class of a high
address how its value is to be taken, and the value is always one that can be taken so. Whether
code is found between a low address and a high one therefore depends on their forms alone.
-/

namespace Symbolication.CompileUnit

variable {sections : DebugSections} {header : UnitHeader} {unit : CompileUnit} {entry : Entry}
  {high : Attribute}

theorem classed_of_ofHeader (decoded : ofHeader sections header = .ok unit) :
    ∀ entry ∈ unit.entries, ∀ found ∈ entry.attributes, found.IsClassed := by
  obtain ⟨_, _, entries⟩ := parts_of_ofHeader decoded
  obtain ⟨_, _, outcome⟩ := Decoder.runAt_eq_ok.mp entries
  exact EntryTable.decoder_yields _ _ _ outcome

theorem isClassed_of_attribute? {name : AttributeName} {found : Attribute}
    (classed : ∀ found ∈ entry.attributes, found.IsClassed)
    (has : entry.attribute? name = some found) : found.IsClassed :=
  classed found (List.mem_of_find?_eq_some has)

theorem stop?_isSome (low : UInt64) (classed : high.IsClassed) :
    (stop? low high).isSome ↔
      high.form.formClass = .address ∨ high.form.formClass = .constant := by
  have holds := Attribute.isClassed_iff.mp classed
  unfold stop?
  cases kind : high.form.formClass with
  | address => simp [holds.address?_isSome.mpr kind]
  | constant => simp [holds.number?_isSome.mpr (.inl kind)]
  | _ => simp

/-- Which of the forms lead to code: the value of a low address is never missed, and neither is the
value of a high one. -/
theorem contiguousCode_ne_nil_iff (classed : ∀ found ∈ entry.attributes, found.IsClassed) :
    contiguousCode entry ≠ [] ↔
      (∃ low, entry.attribute? .lowAddress = some low ∧ low.form.formClass = .address) ∧
        ∃ high, entry.attribute? .highAddress = some high ∧
          (high.form.formClass = .address ∨ high.form.formClass = .constant) := by
  constructor
  · intro covers
    obtain ⟨range, member⟩ := List.exists_mem_of_ne_nil _ covers
    obtain ⟨begins, stops⟩ := mem_contiguousCode_iff.mp member
    obtain ⟨low, hasLow, isStart⟩ := Option.map_eq_some_iff.mp begins
    obtain ⟨high, stop, hasHigh, ends, _⟩ := stopsAt_iff.mp stops
    have holds := Attribute.isClassed_iff.mp (isClassed_of_attribute? classed hasLow)
    refine ⟨⟨low, hasLow, holds.address?_isSome.mp ?_⟩, high, hasHigh, ?_⟩
    · rw [isStart]
      rfl
    · exact (stop?_isSome range.start (isClassed_of_attribute? classed hasHigh)).mp
        (Option.isSome_of_eq_some ends)
  · rintro ⟨⟨low, hasLow, lowClass⟩, high, hasHigh, highClass⟩
    have holds := Attribute.isClassed_iff.mp (isClassed_of_attribute? classed hasLow)
    obtain ⟨start, isStart⟩ := Option.isSome_iff_exists.mp (holds.address?_isSome.mpr lowClass)
    obtain ⟨stop, ends⟩ := Option.isSome_iff_exists.mp
      ((stop?_isSome start (isClassed_of_attribute? classed hasHigh)).mpr highClass)
    have begins : entry.value? .lowAddress = some (.address start) := by
      unfold EntryBody.value?
      rw [hasLow, Option.map_some, address?_eq_some_iff.mp isStart]
    rw [contiguousCode_of_bounds begins hasHigh, ends]
    exact List.cons_ne_nil _ _

/-- The two tables of codes agree: a code has a class just if its values can be read, and the class
is that of the form that it means. Forms and values keep in step, with any context, declared form
and bytes, whether version and address size have been checked or not. An attribute that is read has
the form that its declaration comes to, which has a class and is not the indirect one, and its value
is one of that class; of the values, just the constants and the section offsets stand for a number.
A form without a class, declared or named in front of the value, is reported where the attribute
begins, and so is the indirect one when it is named, but no other. All attributes of a decoded unit
are read so, and a high address in the form of an address or a constant is taken as one: code
between two addresses is missed only where the forms say that there is none. -/
theorem values_keep_to_forms :
    (∀ code : FormCode, code.formClass? = none ↔ code.code = 0x00 ∨ code.code = 0x02 ∨
      0x1a ≤ code.code ∧ code.code < 0x20 ∨ 0x20 < code.code) ∧
    (∀ code : FormCode, code.formClass? = code.form?.map Form.formClass) ∧
    (∀ context : StatedContext, Attribute.KeepsToForms (Attribute.decoder context)) ∧
    (∀ found : Attribute, found.IsClassed → (found.value.number?.isSome ↔
      found.form.formClass = .constant ∨ found.form.formClass = .sectionOffset)) ∧
    ∀ sections header unit, ofHeader sections header = .ok unit → ∀ entry ∈ unit.entries,
      (∀ found ∈ entry.attributes, found.IsClassed) ∧
      (∀ high, entry.attribute? .highAddress = some high →
        (high.form.formClass = .address → ∃ stop, high.value = .address stop) ∧
        (high.form.formClass = .constant → ∃ size, high.value.number? = some size)) ∧
      (contiguousCode entry ≠ [] ↔
        (∃ low, entry.attribute? .lowAddress = some low ∧ low.form.formClass = .address) ∧
          ∃ high, entry.attribute? .highAddress = some high ∧
            (high.form.formClass = .address ∨ high.form.formClass = .constant)) := by
  refine ⟨fun _ => FormCode.formClass?_eq_none_iff_unassigned, FormCode.formClass?_eq,
    Attribute.decoder_keepsToForms, ?_, ?_⟩
  · intro found classed
    exact (Attribute.isClassed_iff.mp classed).number?_isSome
  · intro sections header unit decoded entry member
    have classed := classed_of_ofHeader decoded entry member
    refine ⟨classed, ?_, contiguousCode_ne_nil_iff classed⟩
    intro high hasHigh
    have holds := Attribute.isClassed_iff.mp (isClassed_of_attribute? classed hasHigh)
    constructor
    · intro isAddress
      obtain ⟨stop, taken⟩ := Option.isSome_iff_exists.mp (holds.address?_isSome.mpr isAddress)
      exact ⟨stop, address?_eq_some_iff.mp taken⟩
    · intro isConstant
      exact Option.isSome_iff_exists.mp (holds.number?_isSome.mpr (.inl isConstant))

/-- A subprogram whose high address is a size in one byte, behind the form that it has. -/
def namedFormSections : DebugSections where
  info := [11, 0, 0, 0, 4, 0, 0, 0, 0, 0, 1, 1, 0x10, 0x0b, 0x40]
  abbreviations := [1, 46, 0, 0x11, 0x01, 0x12, 0x16, 0, 0, 0]
  addressRanges := []
  lines := []
  strings := []
  rangeLists := []

def namedFormUnit : CompileUnit where
  header := {
    offset := 0, unitLength := 11, version := .four, abbreviationOffset := 0, addressWidth := .one }
  data := [1, 0x10, 0x0b, 0x40]
  abbreviations := {
    declarations := [{
      code := 1, tag := .subprogram, hasChildren := false
      attributes := [
        { name := .lowAddress, form := Form.address.code },
        { name := .highAddress, form := Form.indirect.code }] }] }
  toEntryTable := .ofEntries [
    { offset := 0, code := 1, tag := .subprogram, hasChildren := false, parent := none
      attributes := [
        { name := .lowAddress, form := .address, value := .address 0x10 },
        { name := .highAddress, form := .data1, value := .data [0x40] }] }]
  lineTable := none

/-- A version and an address size that no unit has. -/
def oddContext : StatedContext := { version := 7, addressSize := 3, strings := [] }

theorem values_keep_to_forms_named :
    ofHeader namedFormSections namedFormUnit.header = .ok namedFormUnit ∧
      contiguousCode namedFormUnit.entries[0] ≠ [] ∧
      (Attribute.decoder oddContext { name := .name, form := Form.indirect.code }).run
          ((Cursor.ofSection .info [9, 0xa0, 0x3e, 1]).after [9] [0xa0, 0x3e, 1]) =
        .error { source := .info, offset := 1, fault := .unsupportedForm ⟨0x1f20⟩ } := by
  have decoded : ofHeader namedFormSections namedFormUnit.header = .ok namedFormUnit := by
    decide +kernel
  obtain ⟨unassigned, _, keepsToForms, _, units⟩ := values_keep_to_forms
  have vendor : (⟨0x1f20⟩ : FormCode).formClass? = none := (unassigned _).mpr (by decide)
  have named : Form.indirect.code.ComesTo
      ((Cursor.ofSection .info [9, 0xa0, 0x3e, 1]).after [9] [0xa0, 0x3e, 1]) ⟨0x1f20⟩
      ((Cursor.ofSection .info [9, 0xa0, 0x3e, 1]).after [9, 0xa0, 0x3e] [1]) :=
    .named (by decide +kernel)
  refine ⟨decoded, ?_, (keepsToForms oddContext).refuses named (.inl vendor)⟩
  exact (units _ _ _ decoded _ List.mem_cons_self).2.2.mpr
    ⟨⟨_, rfl, rfl⟩, _, rfl, .inr rfl⟩

end Symbolication.CompileUnit
