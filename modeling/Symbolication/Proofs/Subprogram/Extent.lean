import Symbolication.Proofs.CompileUnit.Decoding
import Symbolication.Proofs.Entry.Attribute
import Symbolication.Proofs.Subprogram.Code

/-!
The size of a subprogram's code, as it is written. The high address holds it in a fixed number of
bytes or in base 128, or holds the address behind the code instead; each form can be declared or
named in front of the value. Which addresses are covered depends on the size alone.
-/

namespace Symbolication.CompileUnit

/-- The bytes, in the form, say where code stops that begins at `low` and has the size: as the size
itself, padded or not, or as the address behind the code. -/
inductive WritesStop (context : AttributeContext) (low size : UInt64) : Form → Bytes → Prop
  | fixed {form : Form} {count : Nat} :
      (form, count) ∈ [(Form.data1, 1), (Form.data2, 2), (Form.data4, 4), (Form.data8, 8)] →
        size.toNat < 256 ^ count →
          WritesStop context low size form (Bytes.ofNumber count size.toNat)
  | unsigned {bytes : Bytes} : Leb128.Framed bytes → Leb128.groupSum bytes = size.toNat →
      WritesStop context low size .unsignedData bytes
  | signed {bytes : Bytes} : Leb128.Framed bytes → Leb128.signedSum bytes = size.toNat →
      size.toNat < 2 ^ 63 → WritesStop context low size .signedData bytes
  | address {stop : UInt64} : stop.toNat = low.toNat + size.toNat →
      stop.toNat < 256 ^ context.addressWidth.bytes →
        WritesStop context low size .address
          (Bytes.ofNumber context.addressWidth.bytes stop.toNat)

/-- The bytes of a high address whose form is declared, or is left open and named in front. -/
inductive WritesHigh (context : AttributeContext) (low size : UInt64) : FormCode → Bytes → Prop
  | direct {form : Form} {bytes : Bytes} : WritesStop context low size form bytes →
      WritesHigh context low size form.code bytes
  | indirect {form : Form} {naming bytes : Bytes} : Leb128.Framed naming →
      Leb128.groupSum naming = form.code.code.toNat → WritesStop context low size form bytes →
        WritesHigh context low size Form.indirect.code (naming ++ bytes)

variable {context : AttributeContext} {low size address : UInt64} {form : Form} {code : FormCode}
  {bytes : Bytes}

theorem stop?_of_number {value : AttributeValue} (isConstant : form.formClass = .constant)
    (means : value.number? = some size) :
    stop? low { name := .highAddress, form, value } = some (low + size) :=
  stop?_eq_some_iff.mpr (.inr ⟨isConstant, size, means, rfl⟩)

theorem ne_indirect_of_stop? {value : AttributeValue} {stop : UInt64}
    (stops : stop? low { name := .highAddress, form, value } = some stop) : form ≠ .indirect := by
  rintro rfl
  cases stops

theorem fixed_decoder {count : Nat} (member :
    (form, count) ∈ [(Form.data1, 1), (Form.data2, 2), (Form.data4, 4), (Form.data8, 8)]) :
    form.formClass = .constant ∧ count ∈ [1, 2, 4, 8] ∧
      ∀ start, AttributeValue.decoder context start form = .data <$> Decoder.take count := by
  simp only [List.mem_cons, Prod.mk.injEq, List.not_mem_nil, or_false] at member
  rcases member with ⟨rfl, rfl⟩ | ⟨rfl, rfl⟩ | ⟨rfl, rfl⟩ | ⟨rfl, rfl⟩ <;>
    exact ⟨rfl, by decide, fun _ => rfl⟩

/-- Each way to write it is read in full, and to the same stop. -/
theorem WritesStop.reads (writes : WritesStop context low size form bytes) :
    ∃ value, stop? low { name := .highAddress, form, value } = some (low + size) ∧
      ∀ start cursor suffix,
        (AttributeValue.decoder context start form).Reads cursor bytes suffix value := by
  cases writes with
  | @fixed _ count member fits =>
      obtain ⟨isConstant, sized, decodes⟩ := fixed_decoder member
      have means := Bytes.constant?_ofNumber sized fits
      rw [UInt64.ofNat_toNat] at means
      refine ⟨.data (Bytes.ofNumber count size.toNat), stop?_of_number isConstant means, ?_⟩
      intro start cursor suffix
      rw [decodes start]
      exact (Decoder.take_reads (Bytes.length_ofNumber _ _)).map _
  | unsigned framed sum =>
      have encodes := framed.encodesUnsigned sum size.toNat_lt
      exact ⟨.unsigned size, stop?_of_number rfl rfl,
        fun _ _ _ => (Decoder.unsigned_reads_number encodes).map _⟩
  | signed framed sum fits =>
      obtain ⟨value, decodes, same⟩ := framed.encodesSigned sum (by omega) (by omega)
      have sameNumber : value = Int64.ofNat size.toNat := by
        apply Int64.toInt_inj.mp
        rw [same, Int64.toInt_ofNat_of_lt fits]
      have means : value.toUInt64 = size := by
        rw [sameNumber, Int64.toUInt64_ofNat', UInt64.ofNat_toNat]
      exact ⟨.signed value, stop?_of_number rfl (congrArg some means),
        fun _ _ _ => (Decoder.signed_reads_encoding decodes).map _⟩
  | @address stop sum fits =>
      have means : stop = low + size := by
        apply UInt64.toNat_inj.mp
        have bound := stop.toNat_lt
        rw [UInt64.toNat_add]
        omega
      exact ⟨.address stop, stop?_eq_some_iff.mpr (.inl ⟨rfl, congrArg _ means⟩),
        fun _ _ _ => (Decoder.address_reads _ fits).map _⟩

theorem WritesHigh.reads (writes : WritesHigh context low size code bytes) :
    ∃ high, stop? low high = some (low + size) ∧ ∀ cursor suffix,
      (Attribute.decoder context { name := .highAddress, form := code }).Reads cursor bytes suffix
        high := by
  cases writes with
  | direct writes =>
      obtain ⟨value, stops, reads⟩ := writes.reads
      exact ⟨_, stops, fun cursor suffix => Attribute.reads_of_value (ne_indirect_of_stop? stops)
        fun start => reads start cursor suffix⟩
  | indirect framed sum writes =>
      obtain ⟨value, stops, reads⟩ := writes.reads
      have names := framed.encodesUnsigned sum (UInt64.toNat_lt _)
      exact ⟨_, stops, fun cursor suffix =>
        Attribute.reads_of_named_value names fun start cursor => reads start cursor suffix⟩

variable {unit : CompileUnit} {rangeLists : Bytes} {entry : Entry}

/-- A subprogram without a range list covers the addresses from its low address on, as many as its
size says, whatever its high address is written as: in any of the forms of constants, padded or not,
or as an address, declared in this form or in the indirect one. All that are possible are read in
full, in front of anything. A size that leads past the last address covers nothing, and neither does
a high address that is neither a constant nor an address. -/
theorem covers_whatever_encoding {sections : DebugSections} {start : Nat} {unit : CompileUnit}
    (decoded : decode sections start = .ok unit) {entry : Entry} (member : entry ∈ unit.entries)
    (subprogram : entry.tag = .subprogram) (without : entry.value? .ranges = none) {low : UInt64}
    (begins : entry.value? .lowAddress = some (.address low)) (rangeLists : Bytes) :
    (∀ size code bytes front place behind,
      WritesHigh (unit.attributeContext sections.strings) low size code bytes →
      unit.Writes sections.strings entry front { name := .highAddress, form := code } place →
      place.rest = bytes ++ behind → ∀ address,
        unit.coversAddress rangeLists address entry =
          .ok (low.toNat ≤ address.toNat ∧
            address.toNat < (low.toNat + size.toNat) % 2 ^ 64) ∧
        (low.toNat + size.toNat < 2 ^ 64 →
          unit.coversAddress rangeLists address entry =
            .ok (low.toNat ≤ address.toNat ∧ address.toNat < low.toNat + size.toNat))) ∧
    (∀ high, entry.attribute? .highAddress = some high → high.form.formClass ≠ .address →
      high.form.formClass ≠ .constant → ∀ address,
        unit.coversAddress rangeLists address entry = .ok false) ∧
    ∀ size code bytes, WritesHigh (unit.attributeContext sections.strings) low size code bytes →
      ∃ high, ∀ cursor suffix, (Attribute.decoder (unit.attributeContext sections.strings)
        { name := .highAddress, form := code }).Reads cursor bytes suffix high := by
  refine ⟨?_, ?_, ?_⟩
  · intro size code bytes front place behind writes stands ahead address
    obtain ⟨high, stops, reads⟩ := writes.reads
    have parts := decodedAt_of_decode decoded
    have tagged : entry.tag ≠ .null := by
      rw [subprogram]
      decide
    obtain ⟨found, _, readsFound, ends⟩ :=
      parts.attribute_of_writes member (parts.isNull_eq_false member tagged) stands
    rw [(reads place behind).run ahead] at readsFound
    cases readsFound
    have stopsAt := stopsAt_iff.mpr ⟨high, low + size, ends, stops, UInt64.toNat_add low size⟩
    have covers : unit.coversAddress rangeLists address entry = .ok _ :=
      coversAddress_of_unlisted subprogram without
        (covers_contiguous_iff without begins stopsAt)
    refine ⟨covers, fun fits => ?_⟩
    rw [covers, Nat.mod_eq_of_lt fits]
  · intro high ends notAddress notConstant address
    exact coversAddress_of_unlisted subprogram without
      (iff_of_false (not_covers_of_class without ends notAddress notConstant) not_false)
  · intro size code bytes writes
    obtain ⟨high, _, reads⟩ := writes.reads
    exact ⟨high, reads⟩

/-- A unit with one-byte addresses whose subprogram leaves the form of its high address open. The
form that is named and the size behind it are both written with a redundant group. -/
def paddedSections : DebugSections where
  info := [13, 0, 0, 0, 4, 0, 0, 0, 0, 0, 1, 1, 0x10, 0x8d, 0x00, 0xc0, 0x00]
  abbreviations := [1, 46, 0, 0x11, 0x01, 0x12, 0x16, 0, 0, 0]
  addressRanges := []
  lines := []
  strings := []
  rangeLists := []

def paddedUnit : CompileUnit where
  header := {
    offset := 0, unitLength := 13, version := .four, abbreviationOffset := 0, addressWidth := .one }
  data := [1, 0x10, 0x8d, 0x00, 0xc0, 0x00]
  abbreviations := {
    declarations := [{
      code := 1, tag := .subprogram, hasChildren := false
      attributes := [
        { name := .lowAddress, form := Form.address.code },
        { name := .highAddress, form := Form.indirect.code }] }] }
  toEntryTable := .ofEntries [
    { offset := 0, code := 1, tag := .subprogram, hasChildren := false, parent := none
      attributes := [
        { name := .lowAddress, form := .address, value := .address 0x10 },
        { name := .highAddress, form := .signedData, value := .signed 0x40 }] }]
  lineTable := none

theorem covers_whatever_encoding_padded :
    decode paddedSections 0 = .ok paddedUnit ∧
      paddedUnit.coversAddress [] 0x4f paddedUnit.entries[0] = .ok true ∧
      paddedUnit.coversAddress [] 0x50 paddedUnit.entries[0] = .ok false := by
  have decoded : decode paddedSections 0 = .ok paddedUnit := by decide +kernel
  have writes : WritesHigh (paddedUnit.attributeContext paddedSections.strings) 0x10 0x40
      Form.indirect.code ([0x8d, 0x00] ++ [0xc0, 0x00]) :=
    .indirect ⟨[0x8d], 0x00, rfl, by decide, List.forall_mem_singleton.mpr (by decide), by decide⟩
      rfl (.signed ⟨[0xc0], 0x00, rfl, by decide, List.forall_mem_singleton.mpr (by decide),
        by decide⟩ rfl (by decide))
  have stands : paddedUnit.Writes paddedSections.strings paddedUnit.entries[0]
      [{ name := .lowAddress, form := Form.address.code }]
      { name := .highAddress, form := Form.indirect.code } (paddedUnit.cursorAt 2) := {
    declared := ⟨_, [], rfl, rfl⟩
    first := by decide
    behind := ⟨[{ name := .lowAddress, form := .address, value := .address 0x10 }],
      by decide +kernel⟩ }
  have covers := (covers_whatever_encoding decoded List.mem_cons_self rfl rfl rfl []).1 _ _ _ _ _
    [] writes stands rfl
  exact ⟨decoded, ((covers 0x4f).2 (by decide)).trans rfl, ((covers 0x50).2 (by decide)).trans rfl⟩

end Symbolication.CompileUnit
