import Symbolication.Proofs.Entry.FormValue

/-!
Attributes read from their bytes, form by form. A value that a form has room for is read back from
its encoding, whatever follows. The indirect form adds the code of another one in front of a value
and nothing else; it cannot be named by itself.
-/

namespace Symbolication

namespace FormValue

/-- The number that is written in the value. -/
def number? : FormValue → Option UInt64
  | data1 value => some value.toUInt64
  | data2 value => some value.toUInt64
  | data4 value => some value.toUInt64
  | data8 value => some value
  | signedData value => some value.toUInt64
  | unsignedData value => some value
  | sectionOffset offset => some offset.toUInt64
  | _ => none

/-- Constants of a fixed size are kept as bytes, and still mean the number that was written. -/
theorem number?_value (value : FormValue) : value.value.number? = value.number? := by
  cases value with
  | data1 value =>
      have constant := Bytes.constant?_ofNumber (by decide : 1 ∈ [1, 2, 4, 8]) value.toNat_lt
      rw [UInt64.ofNat_uInt8ToNat] at constant
      have alone : Bytes.ofNumber 1 value.toNat = [value] :=
        congrArg (fun byte => [byte]) UInt8.ofNat_toNat
      rwa [alone] at constant
  | data2 value =>
      have constant := Bytes.constant?_ofNumber (by decide : 2 ∈ [1, 2, 4, 8]) value.toNat_lt
      rwa [UInt64.ofNat_uInt16ToNat] at constant
  | data4 value =>
      have constant := Bytes.constant?_ofNumber (by decide : 4 ∈ [1, 2, 4, 8]) value.toNat_lt
      rwa [UInt64.ofNat_uInt32ToNat] at constant
  | data8 value =>
      have constant := Bytes.constant?_ofNumber (by decide : 8 ∈ [1, 2, 4, 8]) value.toNat_lt
      rwa [UInt64.ofNat_toNat] at constant
  | address | block1 | block2 | block4 | block | signedData | unsignedData | inlineString
  | stringOffset | flag | flagPresent | reference1 | reference2 | reference4 | reference8
  | unsignedReference | sectionReference | sectionOffset | expression | signature => rfl

end FormValue

namespace AttributeValue

/-- Only the indirect form is reported there, as every number counts bytes; so where the attribute
begins does not matter to the others. -/
theorem decoder_start {context : AttributeContext} {form : Form} (direct : form ≠ .indirect)
    (start start' : Nat) : decoder context start form = decoder context start' form := by
  cases form with
  | block4 => rw [decoder_block4, decoder_block4]
  | reference8 => rw [decoder_reference8, decoder_reference8]
  | sectionReference => rw [decoder_sectionReference, decoder_sectionReference]
  | indirect => exact absurd rfl direct
  | _ => rfl

end AttributeValue

namespace Attribute

variable {context : StatedContext} {name : AttributeName} {code : FormCode} {form : Form}
  {cursor next : Cursor} {encoding behind bytes suffix : Bytes} {start : Nat}

/-- An attribute whose form is settled. -/
def inForm (context : StatedContext) (name : AttributeName) (start : Nat) (code : FormCode) :
    Decoder Attribute :=
  match code.form? with
  | none => Decoder.failAt start (.unsupportedForm code)
  | some form => do
      let value ← AttributeValue.decoder context start form
      pure { name, form, value }

theorem decoder_eq (declaration : AttributeDeclaration) : decoder context declaration = (do
    let start ← Decoder.offset
    let code ← effectiveForm declaration.form
    inForm context declaration.name start code) :=
  rfl

theorem inForm_code (form : Form) : inForm context name start form.code = (do
    let value ← AttributeValue.decoder context start form
    pure { name, form, value }) := by
  unfold inForm
  rw [form.form?_code]

theorem run_direct (direct : code ≠ Form.indirect.code) :
    (decoder context { name, form := code }).run cursor =
      (inForm context name cursor.offset code).run cursor := by
  rw [decoder_eq]
  unfold effectiveForm
  rw [if_neg direct]
  rfl

/-- Behind the code that it names, the attribute is read as if that code had been declared. -/
theorem run_indirect (encodes : Leb128.EncodesUnsigned encoding code.code.toNat)
    (ahead : cursor.rest = encoding ++ behind) :
    (decoder context { name, form := Form.indirect.code }).run cursor =
      (inForm context name cursor.offset code).run (cursor.after encoding behind) := by
  have reads : (effectiveForm Form.indirect.code).Reads cursor encoding behind code := by
    unfold effectiveForm
    rw [if_pos rfl]
    exact (Decoder.unsigned_reads_number encodes).map FormCode.mk
  rw [decoder_eq]
  change (effectiveForm Form.indirect.code >>= inForm context name cursor.offset).run cursor = _
  exact reads.run_bind ahead

theorem code_ne_indirect (direct : form ≠ .indirect) : form.code ≠ Form.indirect.code := by
  intro same
  have found := form.form?_code
  rw [same, Form.form?_code] at found
  exact direct (Option.some.inj found).symm

theorem reads_of_value {value : AttributeValue} (direct : form ≠ .indirect)
    (reads : ∀ start, (AttributeValue.decoder context start form).Reads cursor bytes suffix value) :
    (decoder context { name, form := form.code }).Reads cursor bytes suffix
      { name, form, value } := by
  intro ahead
  rw [run_direct (code_ne_indirect direct), inForm_code]
  refine Decoder.Reads.run ?_ ahead
  exact (reads cursor.offset).bind_last (Decoder.pure_reads _)

theorem reads_of_named_value {value : AttributeValue}
    (names : Leb128.EncodesUnsigned encoding form.code.code.toNat)
    (reads : ∀ start cursor, (AttributeValue.decoder context start form).Reads cursor bytes suffix
      value) :
    (decoder context { name, form := Form.indirect.code }).Reads cursor (encoding ++ bytes) suffix
      { name, form, value } := by
  intro ahead
  rw [List.append_assoc] at ahead
  rw [run_indirect names ahead, inForm_code, (reads cursor.offset _).run_bind rfl,
    Cursor.after_after]
  rfl

theorem name_of_run {declaration : AttributeDeclaration} {found : Attribute}
    (outcome : (decoder context declaration).run cursor = .ok (found, next)) :
    found.name = declaration.name := by
  obtain ⟨start, _, _, outcome⟩ := Decoder.run_bind_eq_ok.mp outcome
  obtain ⟨code, _, _, outcome⟩ := Decoder.run_bind_eq_ok.mp outcome
  split at outcome
  · cases outcome
  · obtain ⟨value, _, _, finish⟩ := Decoder.run_bind_eq_ok.mp outcome
    cases finish
    rfl

theorem names_of_run {declarations : List AttributeDeclaration} {found : List Attribute}
    (outcome : (declarations.mapM (decoder context)).run cursor = .ok (found, next)) :
    found.map (·.name) = declarations.map (·.name) := by
  induction declarations generalizing cursor found with
  | nil =>
      cases outcome
      rfl
  | cons declaration declarations induction =>
      rw [List.mapM_cons] at outcome
      obtain ⟨first, middle, reads, outcome⟩ := Decoder.run_bind_eq_ok.mp outcome
      obtain ⟨others, _, readsOthers, finish⟩ := Decoder.run_bind_eq_ok.mp outcome
      cases finish
      rw [List.map_cons, List.map_cons, name_of_run reads, induction readsOthers]

theorem form_of_run {found : Attribute} (direct : form ≠ .indirect)
    (outcome : (decoder context { name, form := form.code }).run cursor = .ok (found, next)) :
    found.form = form := by
  rw [run_direct (code_ne_indirect direct), inForm_code] at outcome
  obtain ⟨value, _, _, finish⟩ := Decoder.run_bind_eq_ok.mp outcome
  cases finish
  rfl

theorem form_ne_indirect (value : FormValue) : value.form ≠ .indirect := by
  cases value <;> exact Form.noConfusion

/-- Every value is read back from its encoding in its form, whatever follows, and numbers mean what
was written; a text goes up to its zero byte, in place or in the section of strings, and a flag is
set by any other byte than zero. Declared as indirect, an attribute is read in the form that is
named in front of it, unless that is the indirect one again or none at all, which is reported
where the attribute begins. -/
theorem forms_read_back (context : AttributeContext) (name : AttributeName) :
    (∀ value : FormValue, value.Fits context → value.value.number? = value.number? ∧
      ∀ cursor suffix, (decoder context { name, form := value.form.code }).Reads cursor
        (value.encode context) suffix { name, form := value.form, value := value.value }) ∧
    (∀ text : Bytes, 0 ∉ text → ∀ cursor suffix,
      (decoder context { name, form := Form.inlineString.code }).Reads cursor (text ++ [0]) suffix
        { name, form := .inlineString, value := .text (Utf8.lossyText text) } ∧
      ∀ offset : UInt32, text ++ [0] <+: context.strings.drop offset.toNat →
        (decoder context { name, form := Form.stringOffset.code }).Reads cursor
          (Bytes.ofNumber 4 offset.toNat) suffix
          { name, form := .stringOffset, value := .text (Utf8.lossyText text) }) ∧
    (∀ byte cursor suffix,
      (decoder context { name, form := Form.flag.code }).Reads cursor [byte] suffix
        { name, form := .flag, value := .flag (byte ≠ 0) }) ∧
    ∀ (named : FormCode) (encoding behind : Bytes) (cursor : Cursor),
      Leb128.EncodesUnsigned encoding named.code.toNat → cursor.rest = encoding ++ behind →
        (∀ form ≠ .indirect, named = form.code →
          (decoder context { name, form := Form.indirect.code }).run cursor =
              (decoder context { name, form := form.code }).run (cursor.after encoding behind) ∧
            ∀ found next, (decoder context { name, form := Form.indirect.code }).run cursor =
              .ok (found, next) → found.form = form) ∧
        (named = Form.indirect.code ∨ named.form? = none →
          (decoder context { name, form := Form.indirect.code }).run cursor =
            .error {
              source := cursor.source, offset := cursor.offset
              fault := .unsupportedForm named }) := by
  refine ⟨?_, ?_, ?_, ?_⟩
  · intro value fits
    refine ⟨value.number?_value, ?_⟩
    intro cursor suffix
    exact reads_of_value (form_ne_indirect value) (value.decoder_reads fits)
  · intro text clean cursor suffix
    constructor
    · apply reads_of_value (by decide)
      exact fun _ => (Decoder.lossyText_reads clean).map _
    · intro offset stands
      apply reads_of_value (by decide)
      exact fun start => FormValue.stringOffset_reads start (FormValue.lossyTextAt clean stands)
  · intro byte cursor suffix
    apply reads_of_value (by decide)
    exact fun _ => (Decoder.byte_reads byte).map _
  · intro named encoding behind cursor encodes ahead
    rw [run_indirect encodes ahead]
    constructor
    · rintro form direct rfl
      have same : (inForm context name cursor.offset form.code).run (cursor.after encoding behind) =
          (decoder context { name, form := form.code }).run (cursor.after encoding behind) := by
        rw [run_direct (code_ne_indirect direct), inForm_code, inForm_code,
          AttributeValue.decoder_start direct]
      rw [same]
      exact ⟨rfl, fun _ _ outcome => form_of_run direct outcome⟩
    · rintro (rfl | unknown)
      · rw [inForm_code]
        rfl
      · unfold inForm
        rw [unknown]
        rfl

/-- References across units take two bytes here, as addresses do; the text is not UTF-8. -/
def narrowContext : AttributeContext where
  version := .two
  addressWidth := .two
  strings := [0, 0x61, 0xff, 0]

theorem forms_read_back_narrow :
    (decoder narrowContext { name := .name, form := Form.sectionReference.code }).run
        (.ofSection .info [0x34, 0x12, 9]) =
      .ok (
        { name := .name, form := .sectionReference, value := .sectionReference 0x1234 },
        (Cursor.ofSection .info [0x34, 0x12, 9]).after [0x34, 0x12] [9]) ∧
    (decoder narrowContext { name := .name, form := Form.stringOffset.code }).run
        (.ofSection .info [1, 0, 0, 0]) =
      .ok (
        { name := .name, form := .stringOffset, value := .text "a\uFFFD" },
        (Cursor.ofSection .info [1, 0, 0, 0]).after [1, 0, 0, 0] []) ∧
    (decoder narrowContext { name := .name, form := Form.indirect.code }).run
        (.ofSection .info [0x85, 0x00, 0x34, 0x12, 9]) =
      .ok (
        { name := .name, form := .data2, value := .data [0x34, 0x12] },
        (Cursor.ofSection .info [0x85, 0x00, 0x34, 0x12, 9]).after
          [0x85, 0x00, 0x34, 0x12] [9]) ∧
    (decoder narrowContext { name := .name, form := Form.indirect.code }).run
        ((Cursor.ofSection .info [1, 0x16, 0x16, 0x0b, 5]).after [1] [0x16, 0x16, 0x0b, 5]) =
      .error { source := .info, offset := 1, fault := .unsupportedForm Form.indirect.code } := by
  obtain ⟨values, texts, _, named⟩ := forms_read_back narrowContext .name
  have fits : (FormValue.sectionReference 0x1234).Fits narrowContext := by
    change 0x1234 < 256 ^ 2
    decide
  have reference := (values (.sectionReference 0x1234) fits).2
    (.ofSection .info [0x34, 0x12, 9]) [9] rfl
  have text := (texts [0x61, 0xff] (by decide) (.ofSection .info [1, 0, 0, 0]) []).2 1
    (by decide) rfl
  have five : Leb128.EncodesUnsigned [0x85, 0x00] 5 := ⟨5, rfl, rfl⟩
  have indirect : Leb128.EncodesUnsigned [0x16] 0x16 := ⟨0x16, rfl, rfl⟩
  refine ⟨reference, ?_, ?_, ?_⟩
  · have lossy : Utf8.lossyText [0x61, 0xff] = "a\uFFFD" := by decide +kernel
    rw [← lossy]
    exact text
  · rw [((named Form.data2.code [0x85, 0x00] [0x34, 0x12, 9]
      (.ofSection .info [0x85, 0x00, 0x34, 0x12, 9]) five rfl).1 .data2 (by decide) rfl).1]
    rfl
  · exact (named Form.indirect.code [0x16] [0x16, 0x0b, 5] _ indirect rfl).2 (.inl rfl)

end Attribute

end Symbolication
