import Symbolication.AddressIndex
import Symbolication.Proofs.Decoder.Repetition

/-!
Sets of address ranges as they are written, each at its place in the section.
-/

namespace Symbolication

/-- A set with the bytes that carry no meaning: those in front of its tuples, and those behind a
tuple of zeros, if the set has one. -/
structure WrittenRangeSet where
  unitOffset : Nat
  addressWidth : Width
  segmentWidth : Option Width
  ranges : List CoveredRange
  padding : Bytes
  trailing? : Option Bytes
deriving DecidableEq, Repr

namespace CoveredRange

def IsZero (range : CoveredRange) : Prop :=
  range.segment = 0 ∧ range.address = 0 ∧ range.length = 0

def encodeSegment (segmentWidth : Option Width) (segment : UInt64) : Bytes :=
  segmentWidth.elim [] fun width => Bytes.ofNumber width.bytes segment.toNat

def encode (addressWidth : Width) (segmentWidth : Option Width) (range : CoveredRange) : Bytes :=
  encodeSegment segmentWidth range.segment ++
      Bytes.ofNumber addressWidth.bytes range.address.toNat ++
    Bytes.ofNumber addressWidth.bytes range.length.toNat

/-- Whether the fields of a tuple have room for the range. Without segments there is only one. -/
structure Fits (addressWidth : Width) (segmentWidth : Option Width) (range : CoveredRange) :
    Prop where
  segment : range.segment.toNat < segmentWidth.elim 1 fun width => 256 ^ width.bytes
  address : range.address.toNat < 256 ^ addressWidth.bytes
  length : range.length.toNat < 256 ^ addressWidth.bytes

theorem encode_ne_nil (addressWidth : Width) (segmentWidth : Option Width) (range : CoveredRange) :
    range.encode addressWidth segmentWidth ≠ [] := by
  have positive := addressWidth.bytes_pos
  apply List.ne_nil_of_length_pos
  unfold encode
  rw [List.length_append, Bytes.length_ofNumber]
  omega

end CoveredRange

namespace WrittenRangeSet

def placedAt (set : WrittenRangeSet) (offset : Nat) : RangeSet where
  offset := offset
  unitOffset := set.unitOffset
  addressWidth := set.addressWidth
  segmentWidth := set.segmentWidth
  ranges := set.ranges

/-- What ends the tuples: one of zeros, or the end of the set. -/
def encodeEnding (set : WrittenRangeSet) : Bytes :=
  match set.trailing? with
  | none => []
  | some _ =>
      CoveredRange.encode set.addressWidth set.segmentWidth
        { segment := 0, address := 0, length := 0 }

def encodeSegmentWidth (segmentWidth : Option Width) : UInt8 := segmentWidth.elim 0 Width.toUInt8

def encodeFields (set : WrittenRangeSet) : Bytes :=
  Bytes.ofNumber 2 RangeSet.version.toNat ++
    (Bytes.ofNumber 4 set.unitOffset ++
      ([set.addressWidth.toUInt8] ++
        ([encodeSegmentWidth set.segmentWidth] ++
          (set.padding ++
            (set.ranges.flatMap (CoveredRange.encode set.addressWidth set.segmentWidth) ++
              set.encodeEnding)))))

def encodeContents (set : WrittenRangeSet) : Bytes := set.encodeFields ++ set.trailing?.getD []

def encode (set : WrittenRangeSet) : Bytes :=
  Bytes.ofNumber 4 set.encodeContents.length ++ set.encodeContents

structure WellFormed (set : WrittenRangeSet) : Prop where
  unitOffset : set.unitOffset < 2 ^ 32
  padding : set.padding.length =
    RangeSet.padding (RangeSet.tupleSize set.addressWidth set.segmentWidth)
  fits : ∀ range ∈ set.ranges, range.Fits set.addressWidth set.segmentWidth
  nonzero : ∀ range ∈ set.ranges, ¬range.IsZero
  length : set.encodeContents.length < 0xfffffff0

/-- The sets that are read from a row, when its first begins at an offset. -/
def place : Nat → List WrittenRangeSet → List RangeSet
  | _, [] => []
  | offset, set :: sets => set.placedAt offset :: place (offset + set.encode.length) sets

end WrittenRangeSet

namespace RangeSet

variable {addressWidth : Width} {segmentWidth : Option Width} {cursor : Cursor} {suffix : Bytes}
  {range : CoveredRange}

theorem segment_reads {segment : UInt64}
    (fits : segment.toNat < segmentWidth.elim 1 fun width => 256 ^ width.bytes) :
    (segmentWidth.elim (pure 0) Decoder.word).Reads cursor
      (CoveredRange.encodeSegment segmentWidth segment) suffix segment := by
  cases segmentWidth with
  | none =>
      have onlySegment : segment = 0 := by
        have bound : segment.toNat < 1 := fits
        apply UInt64.toNat_inj.mp
        simpa using bound
      rw [onlySegment]
      exact Decoder.pure_reads 0
  | some width => exact Decoder.word_reads width fits

theorem tupleHead_reads (fits : range.Fits addressWidth segmentWidth) :
    (tupleHead addressWidth segmentWidth).Reads cursor
      (CoveredRange.encodeSegment segmentWidth range.segment ++
        Bytes.ofNumber addressWidth.bytes range.address.toNat) suffix
      (range.segment, range.address) :=
  (segment_reads fits.segment).bind
    ((Decoder.word_reads addressWidth fits.address).bind_last (Decoder.pure_reads _))

theorem segmentWidth_reads (segmentWidth : Option Width) :
    Decoder.segmentWidth.Reads cursor [WrittenRangeSet.encodeSegmentWidth segmentWidth] suffix
      segmentWidth := by
  apply (Decoder.located_reads (Decoder.byte_reads _)).bind_last
  cases segmentWidth with
  | none => exact Decoder.pure_reads none
  | some width =>
      have nonzero : width.toUInt8 ≠ 0 := by cases width <;> decide
      change Decoder.Reads (if width.toUInt8 = 0 then _ else _) _ _ _ _
      rw [if_neg nonzero]
      exact (Decoder.checkedWidth_reads _ width).map some

theorem tuple_reads (fits : range.Fits addressWidth segmentWidth) {value? : Option CoveredRange}
    (means : (if range.segment = 0 ∧ range.address = 0 ∧ range.length = 0 then none
      else some range) = value?) :
    (tupleHead addressWidth segmentWidth >>= fun (segment, address) => do
        let length ← Decoder.word addressWidth
        pure (if segment = 0 ∧ address = 0 ∧ length = 0 then none
          else some { segment, address, length : CoveredRange })).Reads cursor
      (range.encode addressWidth segmentWidth) suffix value? := by
  apply (tupleHead_reads fits).bind
  apply (Decoder.word_reads addressWidth fits.length).bind_last
  rw [← means]
  exact Decoder.pure_reads _

theorem zero_fits (addressWidth : Width) (segmentWidth : Option Width) :
    ({ segment := 0, address := 0, length := 0 } : CoveredRange).Fits addressWidth
      segmentWidth where
  segment := by
    cases segmentWidth with
    | none => decide
    | some width => cases width <;> decide
  address := by cases addressWidth <;> decide
  length := by cases addressWidth <;> decide

theorem tuples_read (set : WrittenRangeSet) (wellFormed : set.WellFormed) :
    (tuples set.addressWidth set.segmentWidth).Reads cursor
      (set.ranges.flatMap (CoveredRange.encode set.addressWidth set.segmentWidth) ++
        set.encodeEnding) (set.trailing?.getD []) set.ranges := by
  apply Decoder.itemsWhileLeft_flatMap_reads
  · exact CoveredRange.encode_ne_nil set.addressWidth set.segmentWidth
  · intro range member cursor behind
    exact tuple_reads (wellFormed.fits range member) (if_neg (wellFormed.nonzero range member))
  · intro cursor
    unfold WrittenRangeSet.encodeEnding
    cases set.trailing? with
    | none => exact Decoder.itemIfLeft_finished
    | some trailing =>
        -- What trails behind the zeros stays unread, up to the end of the window.
        apply Decoder.itemIfLeft_reads
        · exact List.append_ne_nil_of_left_ne_nil (CoveredRange.encode_ne_nil _ _ _) _
        · exact tuple_reads (zero_fits set.addressWidth set.segmentWidth) rfl

theorem contents_reads (set : WrittenRangeSet) (wellFormed : set.WellFormed) (start : Nat) :
    (contents start).Reads cursor set.encodeFields (set.trailing?.getD [])
      (set.placedAt start) := by
  have number : (UInt32.ofNat set.unitOffset).toNat = set.unitOffset :=
    UInt32.toNat_ofNat_of_lt' wellFormed.unitOffset
  apply (Decoder.uint16_reads version).bind
  rw [if_neg (not_not_intro rfl)]
  apply (Decoder.uint32_ofNat_reads wellFormed.unitOffset).bind
  apply (Decoder.addressWidth_reads set.addressWidth).bind
  apply (segmentWidth_reads set.segmentWidth).bind
  apply (Decoder.skip_reads wellFormed.padding).bind
  apply (tuples_read set wellFormed).bind_last
  rw [number]
  exact Decoder.pure_reads (set.placedAt start)

end RangeSet

namespace AddressIndex

variable {cursor : Cursor}

theorem set_reads (set : WrittenRangeSet) (wellFormed : set.WellFormed) {suffix : Bytes} :
    (Decoder.located .initialLength >>= fun (start, length) => do
        let window ← Decoder.window length
        let set ← Decoder.within window (RangeSet.contents start)
        pure (some set)).Reads cursor set.encode suffix (some (set.placedAt cursor.offset)) := by
  apply (Decoder.located_reads (Decoder.initialLength_reads wellFormed.length)).bind
  apply (Decoder.window_reads rfl).bind_last
  exact (Decoder.within_reads ((RangeSet.contents_reads set wellFormed _).run rfl)).bind_nil
    (Decoder.pure_reads _)

theorem decoder_reads (sets : List WrittenRangeSet) (wellFormed : ∀ set ∈ sets, set.WellFormed)
    {offset : Nat} (place : cursor.offset = offset) :
    decoder.Reads cursor (sets.flatMap WrittenRangeSet.encode) []
      (WrittenRangeSet.place offset sets) := by
  unfold decoder Decoder.itemsWhileLeft
  induction sets generalizing cursor offset with
  | nil => exact Decoder.items_nil_reads Decoder.itemIfLeft_finished
  | cons set sets induction =>
      rw [List.forall_mem_cons] at wellFormed
      rw [List.flatMap_cons, WrittenRangeSet.place]
      apply Decoder.items_cons_reads
      · apply Decoder.itemIfLeft_reads
        · simp [WrittenRangeSet.encode, Bytes.ofNumber]
        · rw [← place]
          exact set_reads set wellFormed.1
      · exact induction wellFormed.2 (by rw [Cursor.offset_after, place])

/-- Sets are read back in order, each at its place in the section. -/
theorem decode_encode (sets : List WrittenRangeSet) (wellFormed : ∀ set ∈ sets, set.WellFormed) :
    decode (sets.flatMap WrittenRangeSet.encode) =
      .ok { sets := WrittenRangeSet.place 0 sets } := by
  have read : decoder.runAt .addressRanges (sets.flatMap WrittenRangeSet.encode) 0 =
      .ok (WrittenRangeSet.place 0 sets) :=
    (decoder_reads sets wellFormed rfl).runAt (Nat.zero_le _) (List.append_nil _).symm
  unfold decode
  rw [read]
  rfl

end AddressIndex

end Symbolication
