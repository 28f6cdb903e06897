import Symbolication.Entry.Basic
import Symbolication.Proofs.Checked.Repetition

/-!
Readings of abbreviations and entries. The one difference is the offset of an entry from the first
one; the first one is where the reading begins, so none stands below it.
-/

namespace Symbolication

namespace Abbreviation

def attributeDeclarationsReading : Reading (List AttributeDeclaration) :=
  .itemsUntil .unsigned fun name => do
    let form ← Reading.unsigned
    pure (if name = 0 ∧ form = 0 then none else some { name := ⟨name⟩, form := ⟨form⟩ })

def reading (code : UInt64) : Reading Abbreviation := do
  let tag ← Reading.unsigned
  let children ← Reading.byte
  let attributes ← attributeDeclarationsReading
  pure { code, tag := ⟨tag⟩, hasChildren := children ≠ 0, attributes }

variable {floor : Nat}

theorem attributeDeclarationsReading_follows :
    Follows floor Eq attributeDeclarationsReading attributeDeclarations :=
  .itemsUntil _ Reading.unsigned_performs.follows fun _ =>
    Reading.unsigned_performs.follows.bind_eq fun _ => .pure rfl

theorem reading_follows (code : UInt64) : Follows floor Eq (reading code) (decoder code) :=
  Reading.unsigned_performs.follows.bind_eq fun _ =>
    Reading.byte_performs.follows.bind_eq fun _ =>
      attributeDeclarationsReading_follows.bind_eq fun _ => .pure rfl

end Abbreviation

namespace AbbreviationTable

def declareReading (table : AbbreviationTable) :
    Nat × UInt64 → Reading (Decoder.Round AbbreviationTable)
  | (start, code) =>
      if code = 0 then pure .finished
      else do
        let declaration ← Abbreviation.reading code
        if (table.find? code).isSome then Reading.failAt start (.duplicateAbbreviation code)
        else pure (.again (table.insert declaration))

def reading : Reading AbbreviationTable :=
  .roundsWhileLeft (.located .unsigned) declareReading empty

def decodeChecked (abbreviations : Bytes) (offset : Nat) :
    ExceptT DecodeError Checked AbbreviationTable :=
  reading.runAt .abbreviations abbreviations offset

theorem declareReading_follows {floor : Nat} (table : AbbreviationTable) (place : Nat × UInt64) :
    Follows floor (Decoder.Round.Related Eq) (table.declareReading place)
      (table.declare place) := by
  obtain ⟨start, code⟩ := place
  apply Follows.ite Iff.rfl
  · intro _
    exact .pure trivial
  · intro _
    apply (Abbreviation.reading_follows code).bind_eq
    intro declaration
    exact .ite Iff.rfl (fun _ => .failAt _ _) fun _ => .pure rfl

theorem decodeChecked_settles (abbreviations : Bytes) (offset : Nat) :
    Settles Eq (decodeChecked abbreviations offset) (decode abbreviations offset) := by
  apply Follows.runAt
  exact .roundsWhileLeft _ (.located Reading.unsigned_performs.follows) declareReading_follows empty

end AbbreviationTable

/-- The value of a constant, which is copied into the front of eight bytes. -/
def Bytes.constantChecked (bytes : Bytes) : Checked (Option UInt64) :=
  if bytes.length ∈ [1, 2, 4, 8] then do
    let room ← Checked.slice (List.replicate 8 (0 : UInt8)) 0 bytes.length
    let copied ← Checked.copy room.length bytes
    pure (some (UInt64.ofNat (Bytes.littleEndian
      (copied ++ (List.replicate 8 (0 : UInt8)).drop bytes.length))))
  else pure none

theorem Bytes.littleEndian_append_zeros (bytes : Bytes) (count : Nat) :
    Bytes.littleEndian (bytes ++ List.replicate count 0) = Bytes.littleEndian bytes := by
  induction bytes with
  | nil =>
      induction count with
      | zero => rfl
      | succ count induction =>
          change 0 + 256 * Bytes.littleEndian ([] ++ List.replicate count 0) = 0
          rw [induction]
          rfl
  | cons byte rest induction => rw [List.cons_append, Bytes.littleEndian, induction,
      Bytes.littleEndian]

theorem Bytes.constantChecked_eq (bytes : Bytes) :
    bytes.constantChecked = .ok bytes.constant? := by
  unfold Bytes.constantChecked Bytes.constant?
  by_cases sized : bytes.length ∈ [1, 2, 4, 8]
  · have short : bytes.length ≤ 8 := by
      revert sized
      simp only [List.mem_cons, List.not_mem_nil, or_false]
      omega
    have room : bytes.length ≤ (List.replicate 8 (0 : UInt8)).length := by simpa using short
    rw [if_pos sized, if_pos sized, Checked.bind_of_ok (Checked.slice_eq_ok (Nat.zero_le _) room),
      Checked.bind_of_ok (Checked.copy_eq_ok (by simp [short])), List.drop_replicate,
      Bytes.littleEndian_append_zeros]
    rfl
  · rw [if_neg sized, if_neg sized]
    rfl

namespace AttributeValue

def numberChecked : AttributeValue → Checked (Option UInt64)
  | data bytes => bytes.constantChecked
  | value => pure value.number?

theorem numberChecked_eq (value : AttributeValue) : value.numberChecked = .ok value.number? := by
  cases value with
  | data bytes => exact bytes.constantChecked_eq
  | _ => rfl

end AttributeValue

def countedReading (count : Reading Nat) : Reading Bytes := do
  let count ← count
  Reading.take count

theorem countedReading_follows {floor : Nat} {count' : Reading Nat} {count : Decoder Nat}
    (follows : Follows floor Eq count' count) :
    Follows floor Eq (countedReading count') (counted count) :=
  follows.bind_eq fun count => (Reading.take_performs count).follows

def sectionReferenceOffsetReading (context : StatedContext) : Reading UInt64 :=
  if context.version = 2 then Reading.address context.addressSize
  else UInt32.toUInt64 <$> Reading.uint32

def AttributeValue.reading (context : StatedContext) (start : Nat) :
    Form → Reading AttributeValue
  | .address => .address <$> Reading.address context.addressSize
  | .block1 => .block <$> countedReading (Reading.unsignedBytes 1)
  | .block2 => .block <$> countedReading (Reading.unsignedBytes 2)
  | .block4 => .block <$> countedReading (do
      let length ← Reading.uint32
      Reading.count start length.toUInt64)
  | .block => .block <$> countedReading Reading.length
  | .data1 => .data <$> Reading.take 1
  | .data2 => .data <$> Reading.take 2
  | .data4 => .data <$> Reading.take 4
  | .data8 => .data <$> Reading.take 8
  | .signedData => .signed <$> Reading.signed
  | .unsignedData => .unsigned <$> Reading.unsigned
  | .inlineString => .text <$> Reading.text
  | .stringOffset => do
      let offset ← Reading.unsignedBytes 4
      .text <$> Checked.stateless (Reading.text.runAt .strings context.strings offset)
  | .flag => (fun byte => .flag (byte ≠ 0)) <$> Reading.byte
  | .flagPresent => pure (.flag true)
  | .reference1 => .unitReference <$> Reading.unsignedBytes 1
  | .reference2 => .unitReference <$> Reading.unsignedBytes 2
  | .reference4 => .unitReference <$> Reading.unsignedBytes 4
  | .reference8 => do
      let offset ← Reading.uint64
      .unitReference <$> Reading.count start offset
  | .unsignedReference => .unitReference <$> Reading.length
  | .sectionReference => do
      let offset ← sectionReferenceOffsetReading context
      .sectionReference <$> Reading.count start offset
  | .sectionOffset => (fun offset => .sectionOffset offset.toUInt64) <$> Reading.uint32
  | .expression => .expression <$> countedReading Reading.length
  | .signature => .signature <$> Reading.uint64
  | .indirect => Reading.failAt start (.unsupportedForm Form.indirect.code)

theorem sectionReferenceOffsetReading_follows {floor : Nat} (context : StatedContext) :
    Follows floor Eq (sectionReferenceOffsetReading context) (sectionReferenceOffset context) :=
  .ite Iff.rfl (fun _ => (Reading.address_performs _).follows) fun _ =>
    Reading.uint32_performs.follows.map_eq _

theorem AttributeValue.reading_follows {floor : Nat} (context : StatedContext) (start : Nat)
    (form : Form) :
    Follows floor Eq (AttributeValue.reading context start form)
      (AttributeValue.decoder context start form) := by
  cases form with
  | address => exact (Reading.address_performs _).follows.map_eq _
  | block1 | block2 =>
      exact (countedReading_follows (Reading.unsignedBytes_performs _).follows).map_eq _
  | block4 =>
      apply (countedReading_follows _).map_eq
      exact Reading.uint32_performs.follows.bind_eq fun _ => .count _ _
  | block | expression =>
      exact (countedReading_follows Reading.length_performs.follows).map_eq _
  | data1 | data2 | data4 | data8 => exact (Reading.take_performs _).follows.map_eq _
  | signedData => exact Reading.signed_performs.follows.map_eq _
  | unsignedData => exact Reading.unsigned_performs.follows.map_eq _
  | inlineString => exact Reading.text_performs.follows.map_eq _
  | stringOffset =>
      apply (Reading.unsignedBytes_performs 4).follows.bind_eq
      intro offset
      exact (Follows.lift (Reading.text_performs.follows.runAt _ _ _)).map_eq _
  | flag => exact Reading.byte_performs.follows.map_eq _
  | flagPresent => exact .pure rfl
  | reference1 | reference2 | reference4 =>
      exact (Reading.unsignedBytes_performs _).follows.map_eq _
  | reference8 =>
      exact Reading.uint64_performs.follows.bind_eq fun _ => (Follows.count _ _).map_eq _
  | unsignedReference => exact Reading.length_performs.follows.map_eq _
  | sectionReference =>
      apply (sectionReferenceOffsetReading_follows context).bind_eq
      exact fun _ => (Follows.count _ _).map_eq _
  | sectionOffset => exact Reading.uint32_performs.follows.map_eq _
  | signature => exact Reading.uint64_performs.follows.map_eq _
  | indirect => exact .failAt _ _

namespace Attribute

def effectiveFormReading (declared : FormCode) : Reading FormCode :=
  if declared = Form.indirect.code then FormCode.mk <$> Reading.unsigned else pure declared

def reading (context : StatedContext) (declaration : AttributeDeclaration) :
    Reading Attribute := do
  let start ← Reading.offset
  let code ← effectiveFormReading declaration.form
  match code.form? with
  | none => Reading.failAt start (.unsupportedForm code)
  | some form => do
      let value ← AttributeValue.reading context start form
      pure { name := declaration.name, form, value }

variable {floor : Nat}

theorem effectiveFormReading_follows (declared : FormCode) :
    Follows floor Eq (effectiveFormReading declared) (effectiveForm declared) := by
  unfold effectiveFormReading effectiveForm
  split
  · exact Reading.unsigned_performs.follows.map_eq _
  · exact .pure rfl

theorem reading_follows (context : StatedContext) (declaration : AttributeDeclaration) :
    Follows floor Eq (reading context declaration) (decoder context declaration) := by
  apply Follows.offset.bind_eq
  intro start
  apply (effectiveFormReading_follows declaration.form).bind_eq
  intro code
  cases code.form? with
  | none => exact .failAt _ _
  | some form =>
      exact (AttributeValue.reading_follows context start form).bind_eq fun _ => .pure rfl

end Attribute

/-- Where an entry begins, its offset from the first one, and its abbreviation code. -/
structure EntryHead where
  start : Nat
  offset : Nat
  code : UInt64
deriving DecidableEq, Repr

namespace EntryBody

def headReading (first : Nat) : Reading EntryHead := do
  let start ← Reading.offset
  let offset ← (Checked.subtract start first : Checked Nat)
  let code ← Reading.unsigned
  pure { start, offset, code }

def reading (abbreviations : AbbreviationTable) (context : AttributeContext) (head : EntryHead) :
    Reading EntryBody :=
  if head.code = 0 then pure (null head.offset)
  else
    match abbreviations.find? head.code with
    | none => Reading.failAt head.start (.unknownAbbreviation head.code)
    | some declaration => do
        let attributes ← declaration.attributes.mapM (Attribute.reading context)
        pure {
          offset := head.offset
          code := head.code
          tag := declaration.tag
          hasChildren := declaration.hasChildren
          attributes }

def rowReading (abbreviations : AbbreviationTable) (context : AttributeContext) :
    Reading (List EntryBody) := do
  let first ← Reading.offset
  .itemsWhileLeft (headReading first) fun head => some <$> reading abbreviations context head

theorem headReading_follows (first : Nat) :
    Follows first (fun (head : EntryHead) place => head =
      { start := place.1, offset := place.1 - first, code := place.2 }) (headReading first)
        Decoder.unsigned.located := by
  apply Follows.offset_bind
  intro start above
  apply Follows.checked (Checked.subtract_eq_ok above)
  exact Reading.unsigned_performs.follows.bind_eq fun _ => .pure rfl

theorem reading_follows {floor : Nat} (abbreviations : AbbreviationTable)
    (context : AttributeContext) (first start : Nat) (code : UInt64) :
    Follows floor Eq (reading abbreviations context { start, offset := start - first, code })
      (decoder abbreviations context first start code) := by
  apply Follows.ite Iff.rfl
  · intro _
    exact .pure rfl
  · intro _
    dsimp only
    cases abbreviations.find? code with
    | none => exact .failAt _ _
    | some declaration =>
        exact (Follows.mapM (Attribute.reading_follows context) _).bind_eq fun _ => .pure rfl

theorem rowReading_follows {floor : Nat} (abbreviations : AbbreviationTable)
    (context : AttributeContext) :
    Follows floor Eq (rowReading abbreviations context) (row abbreviations context) := by
  apply Follows.offset_bind
  intro first _
  apply Follows.itemsWhileLeft _ (headReading_follows first)
  rintro _ ⟨start, code⟩ rfl
  exact (reading_follows abbreviations context first start code).map_eq _

end EntryBody

namespace EntryTable

def reading (abbreviations : AbbreviationTable) (context : AttributeContext) :
    Reading EntryTable :=
  ofRow <$> EntryBody.rowReading abbreviations context

theorem reading_follows {floor : Nat} (abbreviations : AbbreviationTable)
    (context : AttributeContext) :
    Follows floor Eq (reading abbreviations context) (decoder abbreviations context) :=
  (EntryBody.rowReading_follows abbreviations context).map_eq _

end EntryTable

end Symbolication
