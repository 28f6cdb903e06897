import Symbolication.Entry.Attribute
import Symbolication.Proofs.Decoder.Repetition
import Symbolication.Proofs.Decoder.Values

/-!
Attribute values as they are written: what each form can hold, its bytes, and the value that is read
back from them.
-/

namespace Symbolication

/-- A value in one of the forms, the indirect one apart. -/
inductive FormValue where
  | address (value : UInt64)
  | block1 (bytes : Bytes)
  | block2 (bytes : Bytes)
  | block4 (bytes : Bytes)
  | block (bytes : Bytes)
  | data1 (value : UInt8)
  | data2 (value : UInt16)
  | data4 (value : UInt32)
  | data8 (value : UInt64)
  | signedData (value : Int64)
  | unsignedData (value : UInt64)
  | inlineString (text : String)
  /-- A text that stands at an offset of the section of strings. -/
  | stringOffset (offset : UInt32) (text : String)
  | flag (value : Bool)
  | flagPresent
  | reference1 (offset : UInt8)
  | reference2 (offset : UInt16)
  | reference4 (offset : UInt32)
  | reference8 (offset : UInt64)
  | unsignedReference (offset : UInt64)
  | sectionReference (offset : Nat)
  | sectionOffset (offset : UInt32)
  | expression (bytes : Bytes)
  | signature (value : UInt64)
deriving DecidableEq, Repr

def AttributeContext.sectionReferenceBytes (context : AttributeContext) : Nat :=
  if context.version = .two then context.addressWidth.bytes else 4

namespace AttributeValue

variable (context : AttributeContext) (start : Nat)

theorem decoder_block4 :
    decoder context start .block4 = .block <$> counted (Decoder.unsignedBytes 4) :=
  congrArg (AttributeValue.block <$> counted ·) (Decoder.uint32_bind_count start)

theorem decoder_reference8 :
    decoder context start .reference8 = .unitReference <$> Decoder.unsignedBytes 8 := by
  have number : Decoder.uint64 >>= Decoder.count start = Decoder.unsignedBytes 8 :=
    Decoder.word_bind_count .eight start
  rw [← number, map_bind]
  rfl

/-- With a version and an address size that have been checked, only the size of the offset
remains of the choice. -/
theorem sectionReferenceOffset_bind_count :
    sectionReferenceOffset context >>= Decoder.count start =
      Decoder.unsignedBytes context.sectionReferenceBytes := by
  have isTwo : context.stated.version = 2 ↔ context.version = .two := by
    change context.version.number = 2 ↔ _
    cases context.version <;> decide
  unfold sectionReferenceOffset AttributeContext.sectionReferenceBytes
  by_cases versionTwo : context.version = .two
  · rw [if_pos (isTwo.mpr versionTwo), if_pos versionTwo, ← Decoder.word_bind_count _ start]
    exact congrArg (· >>= _) (Decoder.address_toUInt8 _)
  · rw [if_neg (versionTwo ∘ isTwo.mp), if_neg versionTwo, ← Decoder.uint32_bind_count start,
      bind_map_left]

theorem decoder_sectionReference :
    decoder context start .sectionReference =
      .sectionReference <$> Decoder.unsignedBytes context.sectionReferenceBytes := by
  rw [← sectionReferenceOffset_bind_count context start, map_bind]
  rfl

end AttributeValue

namespace FormValue

def form : FormValue → Form
  | address _ => .address
  | block1 _ => .block1
  | block2 _ => .block2
  | block4 _ => .block4
  | block _ => .block
  | data1 _ => .data1
  | data2 _ => .data2
  | data4 _ => .data4
  | data8 _ => .data8
  | signedData _ => .signedData
  | unsignedData _ => .unsignedData
  | inlineString _ => .inlineString
  | stringOffset _ _ => .stringOffset
  | flag _ => .flag
  | flagPresent => .flagPresent
  | reference1 _ => .reference1
  | reference2 _ => .reference2
  | reference4 _ => .reference4
  | reference8 _ => .reference8
  | unsignedReference _ => .unsignedReference
  | sectionReference _ => .sectionReference
  | sectionOffset _ => .sectionOffset
  | expression _ => .expression
  | signature _ => .signature

def value : FormValue → AttributeValue
  | address value => .address value
  | block1 bytes | block2 bytes | block4 bytes | block bytes => .block bytes
  | data1 value => .data [value]
  | data2 value => .data (Bytes.ofNumber 2 value.toNat)
  | data4 value => .data (Bytes.ofNumber 4 value.toNat)
  | data8 value => .data (Bytes.ofNumber 8 value.toNat)
  | signedData value => .signed value
  | unsignedData value => .unsigned value
  | inlineString text | stringOffset _ text => .text text
  | flag value => .flag value
  | flagPresent => .flag true
  | reference1 offset => .unitReference offset.toNat
  | reference2 offset => .unitReference offset.toNat
  | reference4 offset => .unitReference offset.toNat
  | reference8 offset => .unitReference offset.toNat
  | unsignedReference offset => .unitReference offset.toNat
  | sectionReference offset => .sectionReference offset
  | sectionOffset offset => .sectionOffset offset.toUInt64
  | expression bytes => .expression bytes
  | signature value => .signature value

/-- Whether the form has room for the value. Texts hold no zero byte, and one that is referred to
stands where it is said to. -/
def Fits (context : AttributeContext) : FormValue → Prop
  | address value => value.toNat < 256 ^ context.addressWidth.bytes
  | block1 bytes => bytes.length < 256 ^ 1
  | block2 bytes => bytes.length < 256 ^ 2
  | block4 bytes => bytes.length < 256 ^ 4
  | block bytes | expression bytes => bytes.length < 2 ^ 64
  | inlineString text => '\x00' ∉ text.toList
  | stringOffset offset text =>
      '\x00' ∉ text.toList ∧ Utf8.encode text ++ [0] <+: context.strings.drop offset.toNat
  | sectionReference offset => offset < 256 ^ context.sectionReferenceBytes
  | _ => True

def encode (context : AttributeContext) : FormValue → Bytes
  | address value => Bytes.ofNumber context.addressWidth.bytes value.toNat
  | block1 bytes => Bytes.ofNumber 1 bytes.length ++ bytes
  | block2 bytes => Bytes.ofNumber 2 bytes.length ++ bytes
  | block4 bytes => Bytes.ofNumber 4 bytes.length ++ bytes
  | block bytes | expression bytes => Leb128.encodeUnsigned bytes.length ++ bytes
  | data1 value => [value]
  | data2 value => Bytes.ofNumber 2 value.toNat
  | data4 value => Bytes.ofNumber 4 value.toNat
  | data8 value => Bytes.ofNumber 8 value.toNat
  | signedData value => Leb128.encodeSigned value.toInt
  | unsignedData value => Leb128.encodeUnsigned value.toNat
  | inlineString text => Utf8.encode text ++ [0]
  | stringOffset offset _ => Bytes.ofNumber 4 offset.toNat
  | flag value => [if value then 1 else 0]
  | flagPresent => []
  | reference1 offset => Bytes.ofNumber 1 offset.toNat
  | reference2 offset => Bytes.ofNumber 2 offset.toNat
  | reference4 offset => Bytes.ofNumber 4 offset.toNat
  | reference8 offset => Bytes.ofNumber 8 offset.toNat
  | unsignedReference offset => Leb128.encodeUnsigned offset.toNat
  | sectionReference offset => Bytes.ofNumber context.sectionReferenceBytes offset
  | sectionOffset offset => Bytes.ofNumber 4 offset.toNat
  | signature value => Bytes.ofNumber 8 value.toNat

variable {context : AttributeContext} {cursor : Cursor} {bytes count suffix : Bytes}

theorem counted_reads {decoder : Decoder Nat}
    (reads : decoder.Reads cursor count (bytes ++ suffix) bytes.length) :
    (counted decoder).Reads cursor (count ++ bytes) suffix bytes :=
  reads.bind (Decoder.take_reads rfl)

/-- The text at an offset of the section of strings goes up to the next zero byte. -/
theorem lossyTextAt {strings text : Bytes} {offset : Nat} (clean : 0 ∉ text)
    (stands : text ++ [0] <+: strings.drop offset) :
    Decoder.text.runAt .strings strings offset = .ok (Utf8.lossyText text) := by
  obtain ⟨behind, split⟩ := stands
  exact (Decoder.lossyText_reads clean).runAt (Bytes.offset_le_of_drop split.symm (by simp))
    split.symm

theorem textAt {strings : Bytes} {offset : Nat} {text : String} (clean : '\x00' ∉ text.toList)
    (stands : Utf8.encode text ++ [0] <+: strings.drop offset) :
    Decoder.text.runAt .strings strings offset = .ok text := by
  rw [lossyTextAt (Utf8.zero_notMem_encode clean) stands, Utf8.lossyText_encode]

theorem stringOffset_reads {context : StatedContext} {offset : UInt32} {text : String} (start : Nat)
    (found : Decoder.text.runAt .strings context.strings offset.toNat = .ok text) :
    (AttributeValue.decoder context start .stringOffset).Reads cursor
      (Bytes.ofNumber 4 offset.toNat) suffix (.text text) := by
  apply (Decoder.unsignedBytes_reads (by simpa using offset.toNat_lt)).bind_last
  rw [found]
  exact (Decoder.lift_reads text).map _

theorem decoder_reads (value : FormValue) (fits : value.Fits context) (start : Nat) :
    (AttributeValue.decoder context start value.form).Reads cursor (value.encode context) suffix
      value.value := by
  cases value with
  | address value => exact (Decoder.address_reads _ fits).map _
  | block1 bytes => exact (counted_reads (Decoder.unsignedBytes_reads fits)).map _
  | block2 bytes => exact (counted_reads (Decoder.unsignedBytes_reads fits)).map _
  | block4 bytes =>
      change (AttributeValue.decoder context start .block4).Reads _ _ _ _
      rw [AttributeValue.decoder_block4]
      exact (counted_reads (Decoder.unsignedBytes_reads fits)).map _
  | block bytes => exact (counted_reads (Decoder.length_reads fits)).map _
  | data1 value => exact (Decoder.take_reads rfl).map _
  | data2 value => exact (Decoder.take_reads (Bytes.length_ofNumber 2 _)).map _
  | data4 value => exact (Decoder.take_reads (Bytes.length_ofNumber 4 _)).map _
  | data8 value => exact (Decoder.take_reads (Bytes.length_ofNumber 8 _)).map _
  | signedData value => exact (Decoder.signed_reads value).map _
  | unsignedData value => exact (Decoder.unsigned_reads value).map _
  | inlineString text => exact (Decoder.text_reads fits).map _
  | stringOffset offset text => exact stringOffset_reads start (textAt fits.1 fits.2)
  | flag value =>
      apply (Decoder.byte_reads _).mapTo
      cases value <;> rfl
  | flagPresent => exact Decoder.pure_reads _
  | reference1 offset => exact (Decoder.unsignedBytes_reads (by simpa using offset.toNat_lt)).map _
  | reference2 offset => exact (Decoder.unsignedBytes_reads (by simpa using offset.toNat_lt)).map _
  | reference4 offset => exact (Decoder.unsignedBytes_reads (by simpa using offset.toNat_lt)).map _
  | reference8 offset =>
      exact (Decoder.uint64_reads offset).bind_last ((Decoder.count_reads start offset).map _)
  | unsignedReference offset => exact (Decoder.length_reads offset.toNat_lt).map _
  | sectionReference offset =>
      change (AttributeValue.decoder context start .sectionReference).Reads _ _ _ _
      rw [AttributeValue.decoder_sectionReference]
      exact (Decoder.unsignedBytes_reads fits).map _
  | sectionOffset offset => exact (Decoder.uint32_reads offset).map _
  | expression bytes => exact (counted_reads (Decoder.length_reads fits)).map _
  | signature value => exact (Decoder.uint64_reads value).map _

end FormValue

/-- Whether a declaration lets a value be written: it names the value's form, or leaves it to be
written in front of the value. -/
def AttributeDeclaration.Admits (declaration : AttributeDeclaration) (value : FormValue) : Prop :=
  declaration.form = value.form.code ∨ declaration.form = Form.indirect.code

namespace Attribute

def ofValue (declaration : AttributeDeclaration) (value : FormValue) : Attribute where
  name := declaration.name
  form := value.form
  value := value.value

/-- The form of the value, where the declaration leaves it open. -/
def encodeForm (declaration : AttributeDeclaration) (form : Form) : Bytes :=
  if declaration.form = Form.indirect.code then Leb128.encodeUnsigned form.code.code.toNat else []

def encode (context : AttributeContext) (declaration : AttributeDeclaration)
    (value : FormValue) : Bytes :=
  encodeForm declaration value.form ++ value.encode context

variable {context : AttributeContext} {declaration : AttributeDeclaration} {value : FormValue}
  {cursor : Cursor} {suffix : Bytes}

theorem effectiveForm_reads (admits : declaration.Admits value) :
    (effectiveForm declaration.form).Reads cursor (encodeForm declaration value.form) suffix
      value.form.code := by
  unfold effectiveForm encodeForm
  by_cases isIndirect : declaration.form = Form.indirect.code
  · rw [if_pos isIndirect, if_pos isIndirect]
    exact (Decoder.unsigned_reads _).map FormCode.mk
  · rw [if_neg isIndirect, if_neg isIndirect]
    rcases admits with names | leaves
    · rw [names]
      exact Decoder.pure_reads _
    · exact absurd leaves isIndirect

theorem decoder_reads (fits : value.Fits context) (admits : declaration.Admits value) :
    (Attribute.decoder context declaration).Reads cursor (encode context declaration value) suffix
      (ofValue declaration value) := by
  apply Decoder.offset_reads.bind_nil
  apply (effectiveForm_reads admits).bind
  rw [Form.form?_code]
  exact (value.decoder_reads fits _).bind_last (Decoder.pure_reads _)

end Attribute

end Symbolication
