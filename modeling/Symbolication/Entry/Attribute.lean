import Symbolication.Abbreviation
import Symbolication.Decoder.Header

/-!
Attribute values. A declaration fixes the form in which a value is written; the indirect form names
the real one in front of the value. The value that is read is always of the class of its form.
-/

namespace Symbolication

inductive AttributeValue where
  | address (value : UInt64)
  | block (bytes : Bytes)
  /-- A constant of fixed size, as its bytes. -/
  | data (bytes : Bytes)
  | unsigned (value : UInt64)
  | signed (value : Int64)
  | text (value : String)
  | flag (value : Bool)
  /-- An offset from the beginning of the header of the same unit. -/
  | unitReference (offset : Nat)
  /-- An offset into the section of entries. -/
  | sectionReference (offset : Nat)
  /-- An offset into another section. -/
  | sectionOffset (offset : UInt64)
  | expression (bytes : Bytes)
  | signature (value : UInt64)
deriving DecidableEq, Repr

namespace AttributeValue

def address? : AttributeValue → Option UInt64
  | address value => some value
  | _ => none

/-- The number that a constant or a section offset stands for. A negative one wraps. -/
def number? : AttributeValue → Option UInt64
  | data bytes => Bytes.constant? bytes
  | unsigned value => some value
  | sectionOffset offset => some offset
  | signed value => some value.toUInt64
  | _ => none

def text? : AttributeValue → Option String
  | text value => some value
  | _ => none

end AttributeValue

/-- What attributes are read with, as numbers that need not have been checked. -/
structure StatedContext where
  version : UInt16
  addressSize : UInt8
  strings : Bytes

/-- What the attributes of a unit are read with, once its header has been checked. -/
structure AttributeContext where
  version : Version
  addressWidth : Width
  strings : Bytes

def AttributeContext.stated (context : AttributeContext) : StatedContext where
  version := context.version.number
  addressSize := context.addressWidth.toUInt8
  strings := context.strings

instance : Coe AttributeContext StatedContext := ⟨AttributeContext.stated⟩

def counted (count : Decoder Nat) : Decoder Bytes := do
  let count ← count
  Decoder.take count

/-- An offset into the section of entries. Version 2 sized it as an address, later versions as an
offset. -/
def sectionReferenceOffset (context : StatedContext) : Decoder UInt64 :=
  if context.version = 2 then Decoder.address context.addressSize
  else UInt32.toUInt64 <$> Decoder.uint32

/-- A value in the given form. The indirect form names no form of its own; it is reported at
`start`, where the attribute begins, and so is a number too large to count bytes in memory. -/
def AttributeValue.decoder (context : StatedContext) (start : Nat) :
    Form → Decoder AttributeValue
  | .address => .address <$> Decoder.address context.addressSize
  | .block1 => .block <$> counted (Decoder.unsignedBytes 1)
  | .block2 => .block <$> counted (Decoder.unsignedBytes 2)
  | .block4 => .block <$> counted (do
      let length ← Decoder.uint32
      Decoder.count start length.toUInt64)
  | .block => .block <$> counted Decoder.length
  | .data1 => .data <$> Decoder.take 1
  | .data2 => .data <$> Decoder.take 2
  | .data4 => .data <$> Decoder.take 4
  | .data8 => .data <$> Decoder.take 8
  | .signedData => .signed <$> Decoder.signed
  | .unsignedData => .unsigned <$> Decoder.unsigned
  | .inlineString => .text <$> Decoder.text
  | .stringOffset => do
      let offset ← Decoder.unsignedBytes 4
      .text <$> Decoder.lift (Decoder.text.runAt .strings context.strings offset)
  | .flag => (fun byte => .flag (byte ≠ 0)) <$> Decoder.byte
  | .flagPresent => pure (.flag true)
  | .reference1 => .unitReference <$> Decoder.unsignedBytes 1
  | .reference2 => .unitReference <$> Decoder.unsignedBytes 2
  | .reference4 => .unitReference <$> Decoder.unsignedBytes 4
  | .reference8 => do
      let offset ← Decoder.uint64
      .unitReference <$> Decoder.count start offset
  | .unsignedReference => .unitReference <$> Decoder.length
  | .sectionReference => do
      let offset ← sectionReferenceOffset context
      .sectionReference <$> Decoder.count start offset
  | .sectionOffset => (fun offset => .sectionOffset offset.toUInt64) <$> Decoder.uint32
  | .expression => .expression <$> counted Decoder.length
  | .signature => .signature <$> Decoder.uint64
  | .indirect => Decoder.failAt start (.unsupportedForm Form.indirect.code)

structure Attribute where
  name : AttributeName
  /-- The form of the value itself, never the indirect one. -/
  form : Form
  value : AttributeValue
deriving DecidableEq, Repr

namespace Attribute

/-- The form that a declaration comes to: its own, or the one named in front of the value. -/
def effectiveForm (declared : FormCode) : Decoder FormCode :=
  if declared = Form.indirect.code then FormCode.mk <$> Decoder.unsigned else pure declared

/-- The value of a declared attribute. A code without a form is reported where the attribute
begins. -/
def decoder (context : StatedContext) (declaration : AttributeDeclaration) :
    Decoder Attribute := do
  let start ← Decoder.offset
  let code ← effectiveForm declaration.form
  match code.form? with
  | none => Decoder.failAt start (.unsupportedForm code)
  | some form => do
      let value ← AttributeValue.decoder context start form
      pure { name := declaration.name, form, value }

end Attribute

end Symbolication
