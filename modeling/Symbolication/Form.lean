import Symbolication.Text.Number

/-!
The forms in which attribute values are written. A declaration may carry any 64-bit form code; only
some codes mean a form, and each form belongs to one class of values.
-/

namespace Symbolication

/-- A form as a declaration names it. -/
structure FormCode where
  code : UInt64
deriving DecidableEq, Repr

namespace FormCode

def names : List (UInt64 × String) := [
  (0x00, "DW_FORM_null"), (0x01, "DW_FORM_addr"), (0x03, "DW_FORM_block2"),
  (0x04, "DW_FORM_block4"), (0x05, "DW_FORM_data2"), (0x06, "DW_FORM_data4"),
  (0x07, "DW_FORM_data8"), (0x08, "DW_FORM_string"), (0x09, "DW_FORM_block"),
  (0x0a, "DW_FORM_block1"), (0x0b, "DW_FORM_data1"), (0x0c, "DW_FORM_flag"),
  (0x0d, "DW_FORM_sdata"), (0x0e, "DW_FORM_strp"), (0x0f, "DW_FORM_udata"),
  (0x10, "DW_FORM_ref_addr"), (0x11, "DW_FORM_ref1"), (0x12, "DW_FORM_ref2"),
  (0x13, "DW_FORM_ref4"), (0x14, "DW_FORM_ref8"), (0x15, "DW_FORM_ref_udata"),
  (0x16, "DW_FORM_indirect"), (0x17, "DW_FORM_sec_offset"), (0x18, "DW_FORM_exprloc"),
  (0x19, "DW_FORM_flag_present"), (0x20, "DW_FORM_ref_sig8")]

def name? (form : FormCode) : Option String := names.lookup form.code

def text (form : FormCode) : String :=
  form.name?.getD ("DwForm(" ++ Text.hex form.code.toNat ++ ")")

end FormCode

/-- A form whose values can be read. -/
inductive Form where
  | address
  | block1
  | block2
  | block4
  | block
  | data1
  | data2
  | data4
  | data8
  | signedData
  | unsignedData
  | inlineString
  | stringOffset
  | flag
  | flagPresent
  | reference1
  | reference2
  | reference4
  | reference8
  | unsignedReference
  | sectionReference
  | sectionOffset
  | expression
  | signature
  /-- The form code itself stands in front of the value. -/
  | indirect
deriving DecidableEq, Repr

/-- The kind of value that a form encodes. -/
inductive FormClass where
  | address
  | block
  | constant
  | string
  | flag
  | reference
  | sectionOffset
  | expression
  | indirect
deriving DecidableEq, Repr

namespace Form

def code : Form → FormCode
  | address => ⟨0x01⟩
  | block2 => ⟨0x03⟩
  | block4 => ⟨0x04⟩
  | data2 => ⟨0x05⟩
  | data4 => ⟨0x06⟩
  | data8 => ⟨0x07⟩
  | inlineString => ⟨0x08⟩
  | block => ⟨0x09⟩
  | block1 => ⟨0x0a⟩
  | data1 => ⟨0x0b⟩
  | flag => ⟨0x0c⟩
  | signedData => ⟨0x0d⟩
  | stringOffset => ⟨0x0e⟩
  | unsignedData => ⟨0x0f⟩
  | sectionReference => ⟨0x10⟩
  | reference1 => ⟨0x11⟩
  | reference2 => ⟨0x12⟩
  | reference4 => ⟨0x13⟩
  | reference8 => ⟨0x14⟩
  | unsignedReference => ⟨0x15⟩
  | indirect => ⟨0x16⟩
  | sectionOffset => ⟨0x17⟩
  | expression => ⟨0x18⟩
  | flagPresent => ⟨0x19⟩
  | signature => ⟨0x20⟩

def formClass : Form → FormClass
  | address => .address
  | block1 | block2 | block4 | block => .block
  | data1 | data2 | data4 | data8 | signedData | unsignedData => .constant
  | inlineString | stringOffset => .string
  | flag | flagPresent => .flag
  | reference1 | reference2 | reference4 | reference8 | unsignedReference | sectionReference
  | signature => .reference
  | sectionOffset => .sectionOffset
  | expression => .expression
  | indirect => .indirect

end Form

namespace FormCode

/-- The form that the code means, if its values can be read. -/
def form? : FormCode → Option Form
  | ⟨0x01⟩ => some .address
  | ⟨0x0a⟩ => some .block1
  | ⟨0x03⟩ => some .block2
  | ⟨0x04⟩ => some .block4
  | ⟨0x09⟩ => some .block
  | ⟨0x0b⟩ => some .data1
  | ⟨0x05⟩ => some .data2
  | ⟨0x06⟩ => some .data4
  | ⟨0x07⟩ => some .data8
  | ⟨0x0d⟩ => some .signedData
  | ⟨0x0f⟩ => some .unsignedData
  | ⟨0x08⟩ => some .inlineString
  | ⟨0x0e⟩ => some .stringOffset
  | ⟨0x0c⟩ => some .flag
  | ⟨0x19⟩ => some .flagPresent
  | ⟨0x11⟩ => some .reference1
  | ⟨0x12⟩ => some .reference2
  | ⟨0x13⟩ => some .reference4
  | ⟨0x14⟩ => some .reference8
  | ⟨0x15⟩ => some .unsignedReference
  | ⟨0x10⟩ => some .sectionReference
  | ⟨0x17⟩ => some .sectionOffset
  | ⟨0x18⟩ => some .expression
  | ⟨0x20⟩ => some .signature
  | ⟨0x16⟩ => some .indirect
  | _ => none

/-- The class that the code belongs to, if it belongs to one. -/
def formClass? : FormCode → Option FormClass
  | ⟨0x01⟩ => some .address
  | ⟨0x0a⟩ | ⟨0x03⟩ | ⟨0x04⟩ | ⟨0x09⟩ => some .block
  | ⟨0x0b⟩ | ⟨0x05⟩ | ⟨0x06⟩ | ⟨0x07⟩ | ⟨0x0d⟩ | ⟨0x0f⟩ => some .constant
  | ⟨0x08⟩ | ⟨0x0e⟩ => some .string
  | ⟨0x0c⟩ | ⟨0x19⟩ => some .flag
  | ⟨0x10⟩ | ⟨0x11⟩ | ⟨0x12⟩ | ⟨0x13⟩ | ⟨0x14⟩ | ⟨0x15⟩ | ⟨0x20⟩ => some .reference
  | ⟨0x17⟩ => some .sectionOffset
  | ⟨0x18⟩ => some .expression
  | ⟨0x16⟩ => some .indirect
  | _ => none

end FormCode

theorem Form.form?_code (form : Form) : form.code.form? = some form := by
  cases form <;> rfl

theorem FormCode.form?_eq_some_iff {code : FormCode} {form : Form} :
    code.form? = some form ↔ form.code = code := by
  constructor
  · intro found
    unfold form? at found
    split at found <;> cases found <;> rfl
  · rintro rfl
    exact form.form?_code

/-- The codes that have a class are those whose values can be read, and the two tables agree on
it. -/
theorem FormCode.formClass?_eq (code : FormCode) :
    code.formClass? = code.form?.map Form.formClass := by
  cases found : code.form? with
  | some form =>
      rw [← form?_eq_some_iff.mp found]
      cases form <;> rfl
  | none =>
      unfold formClass?
      split <;> first | rfl | cases found

theorem Form.formClass?_code (form : Form) : form.code.formClass? = some form.formClass := by
  rw [FormCode.formClass?_eq, form.form?_code, Option.map_some]

end Symbolication
