import Symbolication.CompileUnit.Header
import Symbolication.Proofs.Decoder.Reads

/-!
Unit headers as they are written.
-/

namespace Symbolication.UnitHeader

def encode (header : UnitHeader) : Bytes :=
  Bytes.ofNumber 4 header.unitLength ++
    (Bytes.ofNumber 2 header.version.number.toNat ++
      (Bytes.ofNumber 4 header.abbreviationOffset ++ [header.addressWidth.toUInt8]))

@[simp] theorem length_encode (header : UnitHeader) : header.encode.length = size := by
  simp [encode, size]

/-- Whether the numbers of the header have room in their fields, and the unit has room for it. -/
structure Fits (header : UnitHeader) : Prop where
  unitLength : header.unitLength < 0xfffffff0
  abbreviationOffset : header.abbreviationOffset < 2 ^ 32
  holdsHeader : size ≤ header.totalSize

theorem decoder_reads {header : UnitHeader} (fits : header.Fits) {cursor : Cursor} {suffix : Bytes}
    (place : cursor.offset = header.offset) (inside : header.totalSize ≤ size + suffix.length) :
    decoder.Reads cursor header.encode suffix header := by
  have number : (UInt32.ofNat header.abbreviationOffset).toNat = header.abbreviationOffset :=
    UInt32.toNat_ofNat_of_lt' fits.abbreviationOffset
  apply Decoder.offset_reads.bind_nil
  apply (Decoder.initialLength_reads fits.unitLength).bind
  apply (Decoder.version_reads cursor.offset header.version).bind
  apply (Decoder.uint32_ofNat_reads fits.abbreviationOffset).bind
  apply (Decoder.addressWidth_reads header.addressWidth).bind_last
  apply Decoder.offset_reads.bind_last
  apply Decoder.left_reads.bind_last
  -- The cursor stands behind the header, with the whole suffix still to read.
  have behind : header.offset + header.encode.length + suffix.length ≥ header.stop := by
    rw [length_encode]
    unfold stop
    omega
  have room : ¬(header.totalSize < size ∨
      header.offset + header.encode.length + suffix.length < header.stop) := by
    have holds := fits.holdsHeader
    omega
  simp only [number, place, Cursor.after_after, Cursor.offset_after, Cursor.left_after,
    List.append_assoc, List.append_nil]
  change Decoder.Reads (if header.totalSize < size ∨
    header.offset + header.encode.length + suffix.length < header.stop then _ else _) _ _ _ _
  rw [if_neg room]
  exact Decoder.pure_reads header

theorem decode_eq_ok {header : UnitHeader} (fits : header.Fits) {info suffix : Bytes}
    (stands : info.drop header.offset = header.encode ++ suffix)
    (inside : header.totalSize ≤ size + suffix.length) :
    decode info header.offset = .ok header := by
  have nonempty : header.encode ≠ [] := List.ne_nil_of_length_pos (by rw [length_encode]; decide)
  exact (decoder_reads fits rfl inside).runAt (Bytes.offset_le_of_drop stands nonempty) stands

/-- A unit holds its header and ends in the window that it is read in. -/
theorem bounds_of_run {cursor next : Cursor} {header : UnitHeader}
    (outcome : decoder.run cursor = .ok (header, next)) :
    size ≤ header.totalSize ∧ header.stop ≤ cursor.stop := by
  rw [← (decoder.reaches outcome).stop_eq]
  simp only [decoder, Decoder.run_bind_eq_ok] at outcome
  obtain ⟨start, _, _, unitLength, _, _, version, _, _, abbreviationOffset, _, _, addressWidth, _,
    _, position, _, stands, left, _, remains, outcome⟩ := outcome
  cases stands
  cases remains
  split at outcome
  · cases outcome
  · rename_i room
    cases outcome
    exact ⟨Nat.le_of_not_lt fun small => room (.inl small),
      Nat.le_of_not_lt fun large => room (.inr large)⟩

theorem bounds_of_decode {info : Bytes} {offset : Nat} {header : UnitHeader}
    (decoded : decode info offset = .ok header) :
    offset + size ≤ header.stop ∧ header.stop ≤ info.length := by
  obtain ⟨inside, next, outcome⟩ := Decoder.runAt_eq_ok.mp decoded
  obtain ⟨holds, ends⟩ := bounds_of_run outcome
  have place : header.offset = offset := offset_of_decode decoded
  simp only [Cursor.stop, Cursor.offset, Cursor.left, List.length_drop] at ends
  constructor
  · unfold stop
    omega
  · omega

end Symbolication.UnitHeader
