import Symbolication.Proofs.Decoder.Values
import Symbolication.Proofs.Entry.Attribute
import Symbolication.Proofs.Entry.Row

/-!
The classes of forms and the values that are read in them. A value is always one of the class of its
form, whatever the bytes are; a form without a class is reported where the attribute begins, and no
other one is. None of it rests on the version or the address size having been checked.
-/

namespace Symbolication

/-- The values of a class. None is of the indirect one, and a constant of fixed size has a size that
a number can have. -/
inductive FormClass.Holds : FormClass → AttributeValue → Prop
  | address {value : UInt64} : Holds .address (.address value)
  | block {bytes : Bytes} : Holds .block (.block bytes)
  | data {bytes : Bytes} : bytes.length ∈ [1, 2, 4, 8] → Holds .constant (.data bytes)
  | unsigned {value : UInt64} : Holds .constant (.unsigned value)
  | signed {value : Int64} : Holds .constant (.signed value)
  | text {value : String} : Holds .string (.text value)
  | flag {value : Bool} : Holds .flag (.flag value)
  | unitReference {offset : Nat} : Holds .reference (.unitReference offset)
  | sectionReference {offset : Nat} : Holds .reference (.sectionReference offset)
  | signature {value : UInt64} : Holds .reference (.signature value)
  | sectionOffset {offset : UInt64} : Holds .sectionOffset (.sectionOffset offset)
  | expression {bytes : Bytes} : Holds .expression (.expression bytes)

namespace FormClass.Holds

variable {kind : FormClass} {value : AttributeValue}

theorem ne_indirect (holds : kind.Holds value) : kind ≠ .indirect := by
  rintro rfl
  cases holds

theorem address?_isSome (holds : kind.Holds value) :
    value.address?.isSome ↔ kind = .address := by
  cases holds <;> simp [AttributeValue.address?]

/-- Constants of every size are numbers, and so are section offsets. -/
theorem number?_isSome (holds : kind.Holds value) :
    value.number?.isSome ↔ kind = .constant ∨ kind = .sectionOffset := by
  cases holds with
  | data sized => simp [AttributeValue.number?, Bytes.constant?, sized]
  | _ => simp [AttributeValue.number?]

end FormClass.Holds

namespace FormCode

variable {code : FormCode} {form : Form}

theorem formClass?_eq_none_iff : code.formClass? = none ↔ code.form? = none := by
  rw [formClass?_eq, Option.map_eq_none_iff]

theorem exists_form_of_classed
    (classed : ¬(code.formClass? = none ∨ code = Form.indirect.code)) :
    ∃ form, code.form? = some form ∧ form ≠ .indirect := by
  rw [not_or, formClass?_eq_none_iff] at classed
  obtain ⟨form, means⟩ := Option.ne_none_iff_exists'.mp classed.1
  refine ⟨form, means, ?_⟩
  rintro rfl
  exact classed.2 (form?_eq_some_iff.mp means).symm

/-- The null form has no class, nor have the numbers between the forms and behind the last one. -/
theorem formClass?_eq_none_iff_unassigned :
    code.formClass? = none ↔ code.code = 0x00 ∨ code.code = 0x02 ∨
      0x1a ≤ code.code ∧ code.code < 0x20 ∨ 0x20 < code.code := by
  obtain ⟨number⟩ := code
  unfold formClass?
  -- One number for each form, and an inequality to each of them for the rest.
  split <;>
    simp only [mk.injEq, imp_false, ← UInt64.toNat_inj, UInt64.lt_iff_toNat_lt,
      UInt64.le_iff_toNat_le, UInt64.reduceToNat, UInt64.toNat_zero, reduceCtorEq, false_iff,
      true_iff] at * <;>
    omega

/-- The form that a declared one comes to at a cursor, and the place of the value: a form other than
the indirect one stands for itself, and the indirect one for the number in front of the value. -/
inductive ComesTo : FormCode → Cursor → FormCode → Cursor → Prop
  | direct {declared : FormCode} {cursor : Cursor} : declared ≠ Form.indirect.code →
      ComesTo declared cursor declared cursor
  | named {cursor behind : Cursor} {number : UInt64} :
      Decoder.unsigned.run cursor = .ok (number, behind) →
        ComesTo Form.indirect.code cursor ⟨number⟩ behind

theorem effectiveForm_eq_ok_iff {declared : FormCode} {cursor behind : Cursor} :
    (Attribute.effectiveForm declared).run cursor = .ok (code, behind) ↔
      declared.ComesTo cursor code behind := by
  unfold Attribute.effectiveForm
  constructor
  · intro outcome
    split at outcome
    · rename_i isIndirect
      subst isIndirect
      obtain ⟨number, _, reads, finish⟩ := Decoder.run_bind_eq_ok.mp outcome
      cases finish
      exact .named reads
    · rename_i direct
      cases outcome
      exact .direct direct
  · intro comes
    cases comes with
    | direct direct =>
        rw [if_neg direct]
        rfl
    | named reads =>
        rw [if_pos rfl, Decoder.run_map, reads]

theorem ComesTo.source_eq {declared : FormCode} {cursor behind : Cursor}
    (comes : declared.ComesTo cursor code behind) : behind.source = cursor.source :=
  (Decoder.reaches _ (effectiveForm_eq_ok_iff.mpr comes)).source_eq

end FormCode

namespace AttributeValue

theorem data_yields {count : Nat} (sized : count ∈ [1, 2, 4, 8]) :
    (data <$> Decoder.take count).Yields FormClass.constant.Holds :=
  (Decoder.Yields.take count).map fun _ length => .data (length ▸ sized)

theorem decoder_yields (context : StatedContext) (start : Nat) (form : Form) :
    (decoder context start form).Yields form.formClass.Holds := by
  cases form with
  | address => exact .mapAll fun _ => .address
  | block1 | block2 | block4 | block => exact .mapAll fun _ => .block
  | data1 | data2 | data4 | data8 => exact data_yields (by decide)
  | signedData => exact .mapAll fun _ => .signed
  | unsignedData => exact .mapAll fun _ => .unsigned
  | inlineString => exact .mapAll fun _ => .text
  | stringOffset => exact .andThen fun _ => .mapAll fun _ => .text
  | flag => exact .mapAll fun _ => .flag
  | flagPresent => exact .pure .flag
  | reference1 | reference2 | reference4 | unsignedReference =>
      exact .mapAll fun _ => .unitReference
  | reference8 => exact .andThen fun _ => .mapAll fun _ => .unitReference
  | sectionReference => exact .andThen fun _ => .mapAll fun _ => .sectionReference
  | sectionOffset => exact .mapAll fun _ => .sectionOffset
  | expression => exact .mapAll fun _ => .expression
  | signature => exact .mapAll fun _ => .signature
  | indirect => exact .failAt _ _

section Failing

open Decoder (BlamesNoForm)

theorem counted_blamesNoForm {count : Decoder Nat} (blames : count.BlamesNoForm) :
    (counted count).BlamesNoForm :=
  blames.bind fun _ => .take _

theorem sectionReferenceOffset_blamesNoForm (context : StatedContext) :
    (sectionReferenceOffset context).BlamesNoForm := by
  unfold sectionReferenceOffset
  split
  · exact .address _
  · exact ((BlamesNoForm.unsignedBytes 4).map _).map _

theorem decoder_blamesNoForm {form : Form} (direct : form ≠ .indirect) (context : StatedContext)
    (start : Nat) : (decoder context start form).BlamesNoForm := by
  cases form with
  | address => exact (BlamesNoForm.address _).map _
  | block1 | block2 => exact (counted_blamesNoForm (.unsignedBytes _)).map _
  | block4 =>
      apply BlamesNoForm.map
      apply counted_blamesNoForm
      exact ((BlamesNoForm.unsignedBytes 4).map _).bind fun _ => .count _ _
  | block | expression => exact (counted_blamesNoForm .length).map _
  | data1 | data2 | data4 | data8 => exact (BlamesNoForm.take _).map _
  | signedData | unsignedData => exact (BlamesNoForm.leb128 _).map _
  | inlineString => exact BlamesNoForm.text.map _
  | stringOffset =>
      apply (BlamesNoForm.unsignedBytes 4).bind
      exact fun offset => (BlamesNoForm.text.lift_runAt _ _ _).map _
  | flag | sectionOffset | signature => exact ((BlamesNoForm.unsignedBytes _).map _).map _
  | flagPresent => exact .pure _
  | reference1 | reference2 | reference4 => exact (BlamesNoForm.unsignedBytes _).map _
  | reference8 =>
      exact ((BlamesNoForm.unsignedBytes 8).map _).bind fun _ => (BlamesNoForm.count _ _).map _
  | unsignedReference => exact BlamesNoForm.length.map _
  | sectionReference =>
      exact (sectionReferenceOffset_blamesNoForm context).bind fun _ =>
        (BlamesNoForm.count _ _).map _
  | indirect => exact absurd rfl direct

end Failing

end AttributeValue

namespace Attribute

/-- The form has a class, though never the indirect one, and the value is one of that class. -/
def IsClassed (found : Attribute) : Prop :=
  ∃ kind, found.form.code.formClass? = some kind ∧ kind ≠ .indirect ∧ kind.Holds found.value

theorem isClassed_iff {found : Attribute} :
    found.IsClassed ↔ found.form.formClass.Holds found.value := by
  unfold IsClassed
  rw [Form.formClass?_code]
  constructor
  · rintro ⟨kind, same, _, holds⟩
    cases same
    exact holds
  · intro holds
    exact ⟨_, rfl, holds.ne_indirect, holds⟩

section Settled

variable {context : StatedContext} {declaration : AttributeDeclaration} {name : AttributeName}
  {cursor behind : Cursor} {code : FormCode} {form : Form} {start : Nat}

theorem run_decoder (comes : declaration.form.ComesTo cursor code behind) :
    (decoder context declaration).run cursor =
      (inForm context declaration.name cursor.offset code).run behind := by
  rw [decoder_eq, Decoder.run_bind, Decoder.run_offset]
  dsimp only
  rw [Decoder.run_bind, FormCode.effectiveForm_eq_ok_iff.mpr comes]

theorem run_decoder_of_error {error : DecodeError}
    (fails : (effectiveForm declaration.form).run cursor = .error error) :
    (decoder context declaration).run cursor = .error error := by
  rw [decoder_eq, Decoder.run_bind, Decoder.run_offset]
  dsimp only
  rw [Decoder.run_bind, fails]

theorem inForm_eq (means : code.form? = some form) :
    inForm context name start code = (do
      let value ← AttributeValue.decoder context start form
      pure { name, form, value }) := by
  unfold inForm
  rw [means]

theorem inForm_refuses
    (unclassed : code.formClass? = none ∨ code = Form.indirect.code) :
    inForm context name start code = Decoder.failAt start (.unsupportedForm code) := by
  rcases unclassed with unclassed | rfl
  · unfold inForm
    rw [FormCode.formClass?_eq_none_iff.mp unclassed]
  · rw [inForm_eq (Form.form?_code _)]
    rfl

theorem inForm_blamesNoForm (means : code.form? = some form) (direct : form ≠ .indirect) :
    (inForm context name start code).BlamesNoForm := by
  rw [inForm_eq means]
  exact (AttributeValue.decoder_blamesNoForm direct context start).bind fun _ => .pure _

theorem effectiveForm_blamesNoForm (declared : FormCode) :
    (effectiveForm declared).BlamesNoForm := by
  unfold effectiveForm
  split
  · exact (Decoder.BlamesNoForm.leb128 _).map _
  · exact .pure _

end Settled

/-- A reading of attributes keeps to the classes of their forms. -/
structure KeepsToForms (reading : AttributeDeclaration → Decoder Attribute) : Prop where
  /-- What is read has the form that the declaration comes to, and a value of its class. -/
  reads {declaration : AttributeDeclaration} {cursor next : Cursor} {found : Attribute} :
    (reading declaration).run cursor = .ok (found, next) →
      (∃ behind, declaration.form.ComesTo cursor found.form.code behind) ∧ found.IsClassed
  /-- A form without a class, or the indirect one once more, is reported where the attribute
  begins, whatever stands behind it. -/
  refuses {declaration : AttributeDeclaration} {cursor behind : Cursor} {code : FormCode} :
    declaration.form.ComesTo cursor code behind →
      code.formClass? = none ∨ code = Form.indirect.code →
        (reading declaration).run cursor = .error {
          source := cursor.source, offset := cursor.offset, fault := .unsupportedForm code }
  /-- No other form is reported. -/
  blames {declaration : AttributeDeclaration} {cursor : Cursor} {error : DecodeError}
      {code : FormCode} :
    (reading declaration).run cursor = .error error → error.fault = .unsupportedForm code →
      (∃ behind, declaration.form.ComesTo cursor code behind) ∧
        (code.formClass? = none ∨ code = Form.indirect.code)

theorem decoder_keepsToForms (context : StatedContext) : KeepsToForms (decoder context) where
  reads := by
    intro declaration cursor next found outcome
    rw [decoder_eq] at outcome
    obtain ⟨start, _, here, outcome⟩ := Decoder.run_bind_eq_ok.mp outcome
    cases here
    obtain ⟨code, behind, settles, outcome⟩ := Decoder.run_bind_eq_ok.mp outcome
    cases means : code.form? with
    | none =>
        rw [inForm_refuses (.inl (FormCode.formClass?_eq_none_iff.mpr means))] at outcome
        cases outcome
    | some form =>
        rw [inForm_eq means] at outcome
        obtain ⟨value, _, reads, finish⟩ := Decoder.run_bind_eq_ok.mp outcome
        cases finish
        have comes := FormCode.effectiveForm_eq_ok_iff.mp settles
        rw [← FormCode.form?_eq_some_iff.mp means] at comes
        refine ⟨⟨behind, comes⟩, isClassed_iff.mpr ?_⟩
        exact AttributeValue.decoder_yields context _ form _ _ _ reads
  refuses := by
    intro declaration cursor behind code comes unclassed
    rw [run_decoder comes, inForm_refuses unclassed, ← comes.source_eq]
    rfl
  blames := by
    intro declaration cursor error code outcome blamed
    -- A number that cannot be read is no form; behind one that can, the form alone decides.
    cases settles : (effectiveForm declaration.form).run cursor with
    | error error' =>
        rw [run_decoder_of_error settles] at outcome
        cases outcome
        exact absurd blamed (effectiveForm_blamesNoForm _ _ _ settles code)
    | ok result =>
        obtain ⟨code', behind⟩ := result
        have comes := FormCode.effectiveForm_eq_ok_iff.mp settles
        rw [run_decoder comes] at outcome
        by_cases unclassed : code'.formClass? = none ∨ code' = Form.indirect.code
        · rw [inForm_refuses unclassed] at outcome
          cases outcome
          cases blamed
          exact ⟨⟨behind, comes⟩, unclassed⟩
        · obtain ⟨form, means, direct⟩ := FormCode.exists_form_of_classed unclassed
          exact absurd blamed (inForm_blamesNoForm means direct _ _ outcome code)

end Attribute

section Entries

variable {abbreviations : AbbreviationTable} {context : AttributeContext}

theorem EntryBody.decoder_yields (first start : Nat) (code : UInt64) :
    (decoder abbreviations context first start code).Yields fun entry =>
      ∀ found ∈ entry.attributes, found.IsClassed := by
  intro cursor next entry outcome
  rcases cases_of_run outcome with ⟨_, rfl⟩ | ⟨layout, _, _, _, reads, rfl⟩
  · exact List.forall_mem_nil _
  · have classed (declaration : AttributeDeclaration) :
        (Attribute.decoder context declaration).Yields Attribute.IsClassed :=
      fun _ _ _ reads => ((Attribute.decoder_keepsToForms context).reads reads).2
    exact Decoder.Yields.mapM classed layout.attributes _ _ _ reads

/-- Every attribute of every entry is of the class of its form. -/
theorem EntryTable.decoder_yields : (decoder abbreviations context).Yields fun table =>
    ∀ entry ∈ table.entries, ∀ found ∈ entry.attributes, found.IsClassed := by
  intro cursor next table outcome entry member
  obtain ⟨_, _, _, reads⟩ := EntryTable.item_of_run outcome member
  obtain ⟨_, _, _, reads⟩ := Decoder.run_bind_eq_ok.mp reads
  exact EntryBody.decoder_yields _ _ _ _ _ _ reads

end Entries

end Symbolication
