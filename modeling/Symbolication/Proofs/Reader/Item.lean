import Symbolication.Proofs.Reader.Performing

/-!
What can be read with a reader, and which bytes mean which value. A decoder that understands bytes
takes them wherever it has them ahead, takes no others, and otherwise fails where it stands.
-/

namespace Symbolication

namespace Decoder

variable {α β : Type}

/-- The decoder takes exactly the bytes that mean something, and a failure is found where it
stands. -/
structure Understands (decoder : Decoder α) (means : Bytes → α → Prop) : Prop where
  reads : ∀ {cursor : Cursor} {taken suffix : Bytes} {value : α},
    means taken value → decoder.Reads cursor taken suffix value
  taken : ∀ {cursor next : Cursor} {value : α}, decoder.run cursor = .ok (value, next) →
    ∃ taken, means taken value ∧ cursor.Passes taken next
  here : ∀ {cursor : Cursor} {error : DecodeError}, decoder.run cursor = .error error →
    ∃ fault, error = cursor.error fault

namespace Understands

variable {decoder : Decoder α} {means : Bytes → α → Prop}

theorem congr {means' : Bytes → α → Prop} (understands : decoder.Understands means)
    (same : ∀ taken value, means taken value ↔ means' taken value) :
    decoder.Understands means' where
  reads holds := understands.reads ((same _ _).mpr holds)
  taken outcome := by
    obtain ⟨taken, holds, passes⟩ := understands.taken outcome
    exact ⟨taken, (same _ _).mp holds, passes⟩
  here := understands.here

protected theorem map (understands : decoder.Understands means) (function : α → β) :
    (function <$> decoder).Understands
      fun taken result => ∃ value, means taken value ∧ function value = result where
  reads := by
    rintro cursor taken suffix _ ⟨value, holds, rfl⟩
    exact (understands.reads holds).map function
  taken := by
    intro cursor next result outcome
    rw [run_map] at outcome
    split at outcome <;> cases outcome
    rename_i value reads
    obtain ⟨taken, holds, passes⟩ := understands.taken reads
    exact ⟨taken, ⟨value, holds, rfl⟩, passes⟩
  here := by
    intro cursor error outcome
    rw [run_map] at outcome
    split at outcome <;> cases outcome
    rename_i fails
    exact understands.here fails

end Understands

theorem fail_understands (fault : DecodeFault) :
    (fail fault : Decoder α).Understands fun _ _ => False where
  reads nothing := nothing.elim
  taken outcome := by cases outcome
  here outcome := by
    cases outcome
    exact ⟨fault, rfl⟩

theorem take_understands (count : Nat) :
    (take count).Understands fun taken value => taken.length = count ∧ taken = value where
  reads := by
    rintro cursor taken suffix _ ⟨length, rfl⟩
    exact take_reads length
  taken outcome := by
    obtain ⟨length, passes⟩ := take_of_run outcome
    exact ⟨_, ⟨length, rfl⟩, passes⟩
  here := by
    intro cursor error outcome
    simp only [take] at outcome
    split at outcome <;> cases outcome
    exact ⟨_, rfl⟩

theorem skip_understands (count : Nat) :
    (skip count).Understands fun taken _ => taken.length = count :=
  ((take_understands count).map _).congr fun taken value => by simp

theorem unsignedBytes_understands (count : Nat) :
    (unsignedBytes count).Understands fun taken number =>
      taken.length = count ∧ Bytes.littleEndian taken = number := by
  apply ((take_understands count).map Bytes.littleEndian).congr
  intro taken number
  constructor
  · rintro ⟨_, ⟨length, rfl⟩, means⟩
    exact ⟨length, means⟩
  · rintro ⟨length, means⟩
    exact ⟨_, ⟨length, rfl⟩, means⟩

/-- A number in as many bytes as its type has. -/
theorem number_understands {count : Nat} {ofNat : Nat → α} {toNat : α → Nat}
    (number : ∀ value, ofNat (toNat value) = value)
    (fits : ∀ {number}, number < 256 ^ count → toNat (ofNat number) = number) :
    (ofNat <$> unsignedBytes count).Understands fun taken value =>
      taken.length = count ∧ toNat value = Bytes.littleEndian taken := by
  apply ((unsignedBytes_understands count).map ofNat).congr
  intro taken value
  constructor
  · rintro ⟨_, ⟨length, rfl⟩, rfl⟩
    exact ⟨length, fits (length ▸ Bytes.littleEndian_lt taken)⟩
  · rintro ⟨length, same⟩
    exact ⟨_, ⟨length, rfl⟩, same ▸ number value⟩

theorem byte_understands : byte.Understands fun taken value => taken = [value] := by
  have number : byte.Understands fun taken value =>
      taken.length = 1 ∧ value.toNat = Bytes.littleEndian taken :=
    number_understands (fun _ => UInt8.ofNat_toNat) fun fits => UInt8.toNat_ofNat_of_lt' fits
  apply number.congr
  intro taken value
  constructor
  · rintro ⟨length, same⟩
    obtain ⟨byte, rfl⟩ := List.length_eq_one_iff.mp length
    rw [UInt8.toNat_inj.mp same]
  · rintro rfl
    exact ⟨rfl, rfl⟩

theorem signedByte_understands :
    signedByte.Understands fun taken value => taken = [value.toUInt8] := by
  apply (byte_understands.map UInt8.toInt8).congr
  intro taken value
  constructor
  · rintro ⟨_, rfl, rfl⟩
    rw [UInt8.toUInt8_toInt8]
  · rintro rfl
    exact ⟨_, rfl, Int8.toInt8_toUInt8 value⟩

theorem uint16_understands : uint16.Understands fun taken value =>
    taken.length = 2 ∧ value.toNat = Bytes.littleEndian taken :=
  number_understands (fun _ => UInt16.ofNat_toNat) fun fits => UInt16.toNat_ofNat_of_lt' fits

theorem uint32_understands : uint32.Understands fun taken value =>
    taken.length = 4 ∧ value.toNat = Bytes.littleEndian taken :=
  number_understands (fun _ => UInt32.ofNat_toNat) fun fits => UInt32.toNat_ofNat_of_lt' fits

theorem word_understands (width : Width) : (word width).Understands fun taken value =>
    taken.length = width.bytes ∧ value.toNat = Bytes.littleEndian taken := by
  have room : 256 ^ width.bytes ≤ UInt64.size := by cases width <;> decide
  exact number_understands (fun _ => UInt64.ofNat_toNat)
    fun fits => UInt64.toNat_ofNat_of_lt' (Nat.lt_of_lt_of_le fits room)

theorem address_understands (size : UInt8) : (address size).Understands fun taken value =>
    (∃ width, Width.ofUInt8? size = some width ∧ taken.length = width.bytes) ∧
      value.toNat = Bytes.littleEndian taken := by
  unfold address
  cases Width.ofUInt8? size with
  | none => exact (fail_understands _).congr fun taken value => by simp
  | some width => exact (word_understands width).congr fun taken value => by simp

theorem leb128_understands {meaning : Bytes → Except Leb128.Fault α}
    {decode : Bytes → Except Leb128.Fault (α × Nat)}
    (decodes : ∀ bytes, decode bytes = do
      let (encoding, _) ← Leb128.splitEncoding Leb128.maximumLength bytes
      let number ← meaning encoding
      .ok (number, encoding.length)) :
    (leb128 meaning).Understands fun taken value => decode taken = .ok (value, taken.length) where
  reads := by
    intro cursor taken suffix value whole
    rw [decodes] at whole
    obtain ⟨split, means⟩ := Leb128.split_of_whole whole suffix
    exact leb128_reads split means
  taken := by
    intro cursor next value outcome
    simp only [leb128] at outcome
    split at outcome
    · cases outcome
    · cases outcome
    · rename_i encoding suffix split
      split at outcome <;> cases outcome
      rename_i means
      refine ⟨encoding, ?_, (Leb128.splitEncoding_sound split).1, rfl⟩
      rw [decodes, Leb128.splitEncoding_alone split]
      change (meaning encoding >>= fun number => .ok (number, encoding.length)) = _
      rw [means]
      rfl
  here := by
    intro cursor error outcome
    simp only [leb128] at outcome
    split at outcome
    · cases outcome
      exact ⟨_, rfl⟩
    · cases outcome
      exact ⟨_, rfl⟩
    · split at outcome <;> cases outcome
      · exact ⟨_, rfl⟩
      · exact ⟨_, rfl⟩

theorem length_understands :
    length.Understands fun taken value =>
      ∃ number, Leb128.decodeUnsigned taken = .ok (number, taken.length) ∧
        number.toNat = value := by
  rw [length_eq]
  exact (leb128_understands fun _ => rfl).map UInt64.toNat

theorem terminated_understands :
    terminated.Understands fun taken value => 0 ∉ value ∧ taken = value ++ [0] where
  reads := by
    rintro cursor _ suffix value ⟨clean, rfl⟩
    exact terminated_reads clean
  taken := by
    intro cursor next value outcome
    simp only [terminated] at outcome
    split at outcome <;> cases outcome
    rename_i suffix split
    obtain ⟨stands, clean⟩ := Bytes.splitAtZero?_sound split
    refine ⟨value ++ [0], ⟨clean, rfl⟩, ?_, rfl⟩
    rw [stands, List.append_assoc]
    rfl
  here := by
    intro cursor error outcome
    simp only [terminated] at outcome
    split at outcome <;> cases outcome
    exact ⟨_, rfl⟩

end Decoder

/-- What is read in one go. -/
inductive ReaderItem where
  | byte
  | signedByte
  | uint16
  | uint32
  | uint64
  | address (size : UInt8)
  | unsigned
  | signed
  /-- A number that counts bytes in memory. -/
  | length
  | bytes (count : Nat)
  | skip (count : Nat)
  | terminated
  | text
deriving DecidableEq, Repr

namespace ReaderItem

abbrev Value : ReaderItem → Type
  | byte => UInt8
  | signedByte => Int8
  | uint16 => UInt16
  | uint32 => UInt32
  | uint64 | address _ | unsigned => UInt64
  | signed => Int64
  | length => Nat
  | bytes _ | terminated => Bytes
  | skip _ => Unit
  | text => String

def decoder : (item : ReaderItem) → Decoder item.Value
  | byte => Decoder.byte
  | signedByte => Decoder.signedByte
  | uint16 => Decoder.uint16
  | uint32 => Decoder.uint32
  | uint64 => Decoder.uint64
  | address size => Decoder.address size
  | unsigned => Decoder.unsigned
  | signed => Decoder.signed
  | length => Decoder.length
  | bytes count => Decoder.take count
  | skip count => Decoder.skip count
  | terminated => Decoder.terminated
  | text => Decoder.text

def program : (item : ReaderItem) → Reading item.Value
  | byte => Reading.byte
  | signedByte => Reading.signedByte
  | uint16 => Reading.uint16
  | uint32 => Reading.uint32
  | uint64 => Reading.uint64
  | address size => Reading.address size
  | unsigned => Reading.unsigned
  | signed => Reading.signed
  | length => Reading.length
  | bytes count => Reading.take count
  | skip count => Reading.skip count
  | terminated => Reading.terminated
  | text => Reading.text

/-- The bytes are an encoding of the value. -/
def Encodes : (item : ReaderItem) → Bytes → item.Value → Prop
  | byte, taken, value => taken = [value]
  | signedByte, taken, value => taken = [value.toUInt8]
  | uint16, taken, value => taken.length = 2 ∧ value.toNat = Bytes.littleEndian taken
  | uint32, taken, value => taken.length = 4 ∧ value.toNat = Bytes.littleEndian taken
  | uint64, taken, value => taken.length = 8 ∧ value.toNat = Bytes.littleEndian taken
  | address size, taken, value =>
      (∃ width, Width.ofUInt8? size = some width ∧ taken.length = width.bytes) ∧
        value.toNat = Bytes.littleEndian taken
  | unsigned, taken, value => Leb128.decodeUnsigned taken = .ok (value, taken.length)
  | signed, taken, value => Leb128.decodeSigned taken = .ok (value, taken.length)
  | length, taken, value =>
      ∃ number, Leb128.decodeUnsigned taken = .ok (number, taken.length) ∧ number.toNat = value
  | bytes count, taken, value => taken.length = count ∧ taken = value
  | skip count, taken, _ => taken.length = count
  | terminated, taken, value => 0 ∉ value ∧ taken = value ++ [0]
  | text, taken, value =>
      ∃ bytes, (0 ∉ bytes ∧ taken = bytes ++ [0]) ∧ Utf8.lossyText bytes = value

theorem program_performs (item : ReaderItem) : item.program.Performs item.decoder := by
  cases item with
  | byte => exact Reading.byte_performs
  | signedByte => exact Reading.signedByte_performs
  | uint16 => exact Reading.uint16_performs
  | uint32 => exact Reading.uint32_performs
  | uint64 => exact Reading.uint64_performs
  | address size => exact Reading.address_performs size
  | unsigned => exact Reading.unsigned_performs
  | signed => exact Reading.signed_performs
  | length => exact Reading.length_performs
  | bytes count => exact Reading.take_performs count
  | skip count => exact Reading.skip_performs count
  | terminated => exact Reading.terminated_performs
  | text => exact Reading.text_performs

theorem decoder_understands (item : ReaderItem) : item.decoder.Understands item.Encodes := by
  cases item with
  | byte => exact Decoder.byte_understands
  | signedByte => exact Decoder.signedByte_understands
  | uint16 => exact Decoder.uint16_understands
  | uint32 => exact Decoder.uint32_understands
  | uint64 => exact Decoder.word_understands .eight
  | address size => exact Decoder.address_understands size
  | unsigned => exact Decoder.leb128_understands fun _ => rfl
  | signed => exact Decoder.leb128_understands fun _ => rfl
  | length => exact Decoder.length_understands
  | bytes count => exact Decoder.take_understands count
  | skip count => exact Decoder.skip_understands count
  | terminated => exact Decoder.terminated_understands
  | text => exact Decoder.terminated_understands.map _

end ReaderItem

end Symbolication
