import Mathlib.Order.Bounds.Basic
import Symbolication.Proofs.AddressIndex.Written

/-!
What stands where in an address range section. The sets tile it, whatever bytes are read, and every
tuple lies in its own set. An address belongs to the first set that covers it, where ranges are
taken as exact numbers.
-/

namespace Symbolication

/-- The difference that is computed decides the same as the sum, which may be out of range. -/
theorem CoveredRange.contains_iff {range : CoveredRange} {address : UInt64} :
    range.contains address = true ↔ range.address.toNat ≤ address.toNat ∧
      address.toNat < range.address.toNat + range.length.toNat := by
  unfold CoveredRange.contains
  rw [Bool.and_eq_true, decide_eq_true_iff, decide_eq_true_iff, UInt64.le_iff_toNat_le]
  constructor
  · rintro ⟨starts, ends⟩
    rw [UInt64.lt_iff_toNat_lt, UInt64.toNat_sub_of_le _ _ (UInt64.le_iff_toNat_le.mpr starts)]
      at ends
    omega
  · rintro ⟨starts, ends⟩
    refine ⟨starts, ?_⟩
    rw [UInt64.lt_iff_toNat_lt, UInt64.toNat_sub_of_le _ _ (UInt64.le_iff_toNat_le.mpr starts)]
    omega

namespace RangeSet

/-- Where a tuple of the set begins, counted from the first one. -/
def tuplePlace (set : RangeSet) (position : Nat) : Nat :=
  set.offset + headerSize + padding (tupleSize set.addressWidth set.segmentWidth) +
    position * tupleSize set.addressWidth set.segmentWidth

/-- The set is what the bytes from its place up to another one say: their number, the fields of the
header, and the tuples up to the first one of zeros or to the end. -/
structure Stands (addressRanges : Bytes) (set : RangeSet) (stop : Nat) : Prop where
  stop_le : stop ≤ addressRanges.length
  length : ∃ number, addressRanges.slice? set.offset 4 = some number ∧
    stop = set.offset + 4 + Bytes.littleEndian number
  unitOffset : ∃ number, addressRanges.slice? (set.offset + 6) 4 = some number ∧
    set.unitOffset = Bytes.littleEndian number
  widths : addressRanges.slice? (set.offset + 10) 2 =
    some [set.addressWidth.toUInt8, WrittenRangeSet.encodeSegmentWidth set.segmentWidth]
  ranges : ∀ position range, set.ranges[position]? = some range →
    set.tuplePlace (position + 1) ≤ stop ∧ ¬range.IsZero ∧
      range.Fits set.addressWidth set.segmentWidth ∧
      addressRanges.slice? (set.tuplePlace position)
          (tupleSize set.addressWidth set.segmentWidth) =
        some (range.encode set.addressWidth set.segmentWidth)
  ending : set.tuplePlace set.ranges.length = stop ∨
    set.tuplePlace (set.ranges.length + 1) ≤ stop ∧
      addressRanges.slice? (set.tuplePlace set.ranges.length)
          (tupleSize set.addressWidth set.segmentWidth) =
        some (CoveredRange.zero.encode set.addressWidth set.segmentWidth)

/-- Some range of the set has the address in it. -/
def Covers (set : RangeSet) (address : UInt64) : Prop :=
  ∃ range ∈ set.ranges, range.address.toNat ≤ address.toNat ∧
    address.toNat < range.address.toNat + range.length.toNat

theorem covers_iff {set : RangeSet} {address : UInt64} :
    set.Covers address ↔ set.ranges.any (·.contains address) = true := by
  unfold Covers
  simp only [List.any_eq_true, CoveredRange.contains_iff]

end RangeSet

namespace WrittenRangeSet

variable {set : WrittenRangeSet}

/-- What stands in front of the tuples. -/
def encodeHead (set : WrittenRangeSet) : Bytes :=
  Bytes.ofNumber 4 set.encodeContents.length ++ (Bytes.ofNumber 2 RangeSet.version.toNat ++
    (Bytes.ofNumber 4 set.unitOffset ++
      ([set.addressWidth.toUInt8, encodeSegmentWidth set.segmentWidth] ++ set.padding)))

def encodeTuples (set : WrittenRangeSet) : Bytes :=
  set.ranges.flatMap (CoveredRange.encode set.addressWidth set.segmentWidth)

/-- What stands behind the tuples. -/
def encodeTail (set : WrittenRangeSet) : Bytes := set.encodeEnding ++ set.trailing?.getD []

theorem encode_eq (set : WrittenRangeSet) :
    set.encode = set.encodeHead ++ (set.encodeTuples ++ set.encodeTail) := by
  simp only [encode, encodeContents, encodeFields, encodeHead, encodeTuples, encodeTail,
    List.append_assoc, List.cons_append, List.nil_append]

theorem between_eq (set : WrittenRangeSet) (front behind : Bytes) :
    front ++ (set.encode ++ behind) =
      (front ++ set.encodeHead) ++ (set.encodeTuples ++ (set.encodeTail ++ behind)) := by
  rw [encode_eq]
  simp only [List.append_assoc]

theorem length_encodeHead (wellFormed : set.WellFormed) :
    set.encodeHead.length = RangeSet.headerSize +
      RangeSet.padding (RangeSet.tupleSize set.addressWidth set.segmentWidth) := by
  rw [← wellFormed.padding]
  simp only [encodeHead, RangeSet.headerSize, List.length_append, Bytes.length_ofNumber,
    List.length_cons, List.length_nil]
  omega

theorem length_ranges (addressWidth : Width) (segmentWidth : Option Width)
    (ranges : List CoveredRange) :
    (ranges.flatMap (CoveredRange.encode addressWidth segmentWidth)).length =
      ranges.length * RangeSet.tupleSize addressWidth segmentWidth := by
  induction ranges with
  | nil => simp
  | cons range ranges induction =>
      rw [List.flatMap_cons, List.length_append, induction, CoveredRange.length_encode,
        List.length_cons, Nat.succ_mul, Nat.add_comm]

theorem length_encode (set : WrittenRangeSet) :
    set.encode.length = 4 + set.encodeContents.length := by
  rw [encode, List.length_append, Bytes.length_ofNumber]

/-- Tuples of one width are found by their position. -/
theorem slice?_ranges (addressWidth : Width) (segmentWidth : Option Width) (front behind : Bytes)
    {ranges : List CoveredRange} {position : Nat} (inside : position < ranges.length) :
    Bytes.slice?
        (front ++ (ranges.flatMap (CoveredRange.encode addressWidth segmentWidth) ++ behind))
        (front.length + position * RangeSet.tupleSize addressWidth segmentWidth)
        (RangeSet.tupleSize addressWidth segmentWidth) =
      some (ranges[position].encode addressWidth segmentWidth) := by
  let write := CoveredRange.encode addressWidth segmentWidth
  have cut : ranges.flatMap write = (ranges.take position).flatMap write ++
      (write ranges[position] ++ (ranges.drop (position + 1)).flatMap write) := by
    rw [← List.flatMap_cons, ← List.flatMap_append, List.getElem_cons_drop, List.take_append_drop]
  apply Bytes.slice?_of_eq (front ++ (ranges.take position).flatMap write)
    ((ranges.drop (position + 1)).flatMap write ++ behind)
  · rw [cut]
    simp only [write, List.append_assoc]
  · rw [List.length_append, length_ranges, List.length_take_of_le (Nat.le_of_lt inside)]
  · exact CoveredRange.length_encode _ _ _

section Between

variable (set) (front behind : Bytes)

theorem slice?_length :
    Bytes.slice? (front ++ (set.encode ++ behind)) front.length 4 =
      some (Bytes.ofNumber 4 set.encodeContents.length) := by
  apply Bytes.slice?_of_eq front (set.encodeContents ++ behind)
  · rw [encode, List.append_assoc]
  · rfl
  · exact Bytes.length_ofNumber _ _

theorem slice?_unitOffset :
    Bytes.slice? (front ++ (set.encode ++ behind)) (front.length + 6) 4 =
      some (Bytes.ofNumber 4 set.unitOffset) := by
  apply Bytes.slice?_of_eq
    (front ++ (Bytes.ofNumber 4 set.encodeContents.length ++
      Bytes.ofNumber 2 RangeSet.version.toNat))
  · rw [encode_eq, encodeHead]
    simp only [List.append_assoc]
    rfl
  · simp only [List.length_append, Bytes.length_ofNumber]
  · exact Bytes.length_ofNumber _ _

theorem slice?_widths :
    Bytes.slice? (front ++ (set.encode ++ behind)) (front.length + 10) 2 =
      some [set.addressWidth.toUInt8, encodeSegmentWidth set.segmentWidth] := by
  apply Bytes.slice?_of_eq
    (front ++ (Bytes.ofNumber 4 set.encodeContents.length ++
      (Bytes.ofNumber 2 RangeSet.version.toNat ++ Bytes.ofNumber 4 set.unitOffset)))
  · rw [encode_eq, encodeHead]
    simp only [List.append_assoc]
    rfl
  · simp only [List.length_append, Bytes.length_ofNumber]
  · rfl

end Between

theorem tuplePlace_placedAt (wellFormed : set.WellFormed) (start position : Nat) :
    (set.placedAt start).tuplePlace position = start + set.encodeHead.length +
      position * RangeSet.tupleSize set.addressWidth set.segmentWidth := by
  rw [length_encodeHead wellFormed, ← Nat.add_assoc]
  rfl

/-- Where the set ends, counted from the place behind its last tuple. -/
theorem tail_place (wellFormed : set.WellFormed) (start : Nat) :
    start + set.encode.length =
      (set.placedAt start).tuplePlace set.ranges.length + set.encodeTail.length := by
  rw [tuplePlace_placedAt wellFormed, encode_eq, List.length_append, List.length_append,
    encodeTuples, length_ranges]
  omega

/-- Every tuple is where its position says, inside the set. -/
theorem tuple_stands (wellFormed : set.WellFormed) (front behind : Bytes) {position : Nat}
    (inside : position < set.ranges.length) :
    (set.placedAt front.length).tuplePlace (position + 1) ≤ front.length + set.encode.length ∧
      Bytes.slice? (front ++ (set.encode ++ behind))
          ((set.placedAt front.length).tuplePlace position)
          (RangeSet.tupleSize set.addressWidth set.segmentWidth) =
        some (set.ranges[position].encode set.addressWidth set.segmentWidth) := by
  constructor
  · have upTo : position + 1 ≤ set.ranges.length := inside
    have before := Nat.mul_le_mul_right
      (RangeSet.tupleSize set.addressWidth set.segmentWidth) upTo
    rw [tail_place wellFormed, tuplePlace_placedAt wellFormed, tuplePlace_placedAt wellFormed]
    omega
  · rw [tuplePlace_placedAt wellFormed, ← List.length_append, between_eq]
    exact slice?_ranges _ _ _ _ inside

/-- Behind the tuples the set ends, or a tuple of zeros has ended them before. -/
theorem tail_stands (set : WrittenRangeSet) (front behind : Bytes) :
    set.encodeTail = [] ∨
      RangeSet.tupleSize set.addressWidth set.segmentWidth ≤ set.encodeTail.length ∧
        Bytes.slice? (front ++ (set.encodeTail ++ behind)) front.length
            (RangeSet.tupleSize set.addressWidth set.segmentWidth) =
          some (CoveredRange.zero.encode set.addressWidth set.segmentWidth) := by
  have zeros := CoveredRange.length_encode set.addressWidth set.segmentWidth .zero
  unfold encodeTail encodeEnding
  cases set.trailing? with
  | none => exact .inl rfl
  | some trailing =>
      refine .inr ⟨?_, ?_⟩
      · rw [List.length_append, ← zeros]
        exact Nat.le_add_right _ _
      · apply Bytes.slice?_of_eq front (trailing ++ behind)
        · rw [List.append_assoc]
          rfl
        · rfl
        · exact zeros

theorem ending_stands (wellFormed : set.WellFormed) (front behind : Bytes) :
    (set.placedAt front.length).tuplePlace set.ranges.length =
        front.length + set.encode.length ∨
      (set.placedAt front.length).tuplePlace (set.ranges.length + 1) ≤
          front.length + set.encode.length ∧
        Bytes.slice? (front ++ (set.encode ++ behind))
            ((set.placedAt front.length).tuplePlace set.ranges.length)
            (RangeSet.tupleSize set.addressWidth set.segmentWidth) =
          some (CoveredRange.zero.encode set.addressWidth set.segmentWidth) := by
  have place := tuplePlace_placedAt wellFormed front.length
  have behindTuples : (set.placedAt front.length).tuplePlace set.ranges.length =
      (front ++ set.encodeHead ++ set.encodeTuples).length := by
    rw [place, List.length_append, List.length_append, encodeTuples, length_ranges]
  have next : (set.placedAt front.length).tuplePlace (set.ranges.length + 1) =
      (set.placedAt front.length).tuplePlace set.ranges.length +
        RangeSet.tupleSize set.addressWidth set.segmentWidth := by
    rw [place, place, Nat.succ_mul, ← Nat.add_assoc]
  rw [tail_place wellFormed, next]
  rcases tail_stands set (front ++ set.encodeHead ++ set.encodeTuples) behind with
    nothing | ⟨room, zeros⟩
  · left
    rw [nothing, List.length_nil, Nat.add_zero]
  · right
    refine ⟨Nat.add_le_add_left room _, ?_⟩
    rw [behindTuples, between_eq, ← List.append_assoc _ set.encodeTuples]
    exact zeros

/-- Between any other bytes, a written set stands where it begins. -/
theorem stands (wellFormed : set.WellFormed) (front behind : Bytes) :
    (set.placedAt front.length).Stands (front ++ (set.encode ++ behind))
      (front.length + set.encode.length) := by
  have fits : set.encodeContents.length < 256 ^ 4 := Nat.lt_trans wellFormed.length (by decide)
  have fitsUnit : set.unitOffset < 256 ^ 4 := wellFormed.unitOffset
  refine { stop_le := ?_, length := ?_, unitOffset := ?_, widths := ?_, ranges := ?_, ending := ?_ }
  · rw [List.length_append, List.length_append]
    omega
  · refine ⟨_, slice?_length set front behind, ?_⟩
    rw [Bytes.littleEndian_ofNumber fits, length_encode, ← Nat.add_assoc]
    rfl
  · exact ⟨_, slice?_unitOffset set front behind, (Bytes.littleEndian_ofNumber fitsUnit).symm⟩
  · exact slice?_widths set front behind
  · intro position range found
    obtain ⟨inside, rfl⟩ := List.getElem?_eq_some_iff.mp found
    have member := List.getElem_mem inside
    obtain ⟨room, written⟩ := tuple_stands wellFormed front behind inside
    exact ⟨room, wellFormed.nonzero _ member, wellFormed.fits _ member, written⟩
  · exact ending_stands wellFormed front behind

end WrittenRangeSet

namespace AddressIndex

/-- From a place on, the sets are all there is in the section: each stands where the one before it
ends, and the last one ends with the section. -/
inductive Tiles (addressRanges : Bytes) : Nat → List RangeSet → Prop
  | finished : Tiles addressRanges addressRanges.length []
  | set {set : RangeSet} {sets : List RangeSet} {stop : Nat} :
      set.Stands addressRanges stop → Tiles addressRanges stop sets →
        Tiles addressRanges set.offset (set :: sets)

theorem tiles_place (front : Bytes) {written : List WrittenRangeSet}
    (wellFormed : ∀ set ∈ written, set.WellFormed) :
    Tiles (front ++ written.flatMap WrittenRangeSet.encode) front.length
      (WrittenRangeSet.place front.length written) := by
  induction written generalizing front with
  | nil =>
      rw [List.flatMap_nil, List.append_nil]
      exact .finished
  | cons set written induction =>
      rw [List.forall_mem_cons] at wellFormed
      have behind := induction (front ++ set.encode) wellFormed.2
      rw [List.append_assoc, List.length_append] at behind
      rw [List.flatMap_cons, WrittenRangeSet.place]
      exact .set (WrittenRangeSet.stands wellFormed.1 front _) behind

/-- How the sets from a cursor on are read, one after the other: how many of them, and with which
result. Each step reads a set and goes on behind it, at least four bytes further. -/
inductive Walk : Nat → Cursor → Except DecodeError (List RangeSet) → Prop
  | finished {cursor : Cursor} : cursor.rest = [] → Walk 0 cursor (.ok [])
  | fault {cursor : Cursor} {error : DecodeError} :
      cursor.rest ≠ [] → set?.run cursor = .error error → Walk 0 cursor (.error error)
  | step {count : Nat} {cursor next : Cursor} {set : RangeSet}
      {result : Except DecodeError (List RangeSet)} :
      cursor.rest ≠ [] → set?.run cursor = .ok (some set, next) →
        cursor.offset + 4 ≤ next.offset → Walk count next result →
          Walk (count + 1) cursor ((set :: ·) <$> result)

variable {cursor next : Cursor}

theorem four_le_of_set? {set : RangeSet} (outcome : set?.run cursor = .ok (some set, next)) :
    cursor.offset + 4 ≤ next.offset ∧ next.left + 4 ≤ cursor.left := by
  obtain ⟨written, _, passes, _⟩ := written_of_set? outcome
  have long : 4 ≤ written.encode.length := by
    rw [WrittenRangeSet.length_encode]
    exact Nat.le_add_right _ _
  rw [passes.offset_eq, passes.left_eq]
  omega

/-- Every reading is such a walk, so it ends, with what is read from there on. -/
theorem exists_walk (cursor : Cursor) :
    ∃ count, 4 * count ≤ cursor.left ∧ Walk count cursor ((·.1) <$> decoder.run cursor) := by
  by_cases finished : cursor.rest = []
  · rw [decoder_run_finished (List.isEmpty_iff.mpr finished)]
    exact ⟨0, Nat.zero_le _, .finished finished⟩
  · rw [decoder_run_more (List.isEmpty_eq_false_iff.mpr finished)]
    cases reads : set?.run cursor with
    | error error => exact ⟨0, Nat.zero_le _, .fault finished reads⟩
    | ok result =>
        obtain ⟨read?, next⟩ := result
        cases read? with
        | none => exact absurd reads set?_ne_none
        | some set =>
            obtain ⟨further, fewer⟩ := four_le_of_set? reads
            obtain ⟨count, few, walk⟩ := exists_walk next
            have walks := Walk.step finished reads further walk
            refine ⟨count + 1, by omega, ?_⟩
            dsimp only [Bind.bind, Except.bind, Option.elim]
            cases behind : decoder.run next with
            | error error =>
                rw [behind] at walks
                exact walks
            | ok result =>
                rw [behind] at walks
                exact walks
termination_by cursor.left
decreasing_by omega

theorem unitOffset?_eq_some_iff {index : AddressIndex} {address : UInt64} {unit : Nat} :
    index.unitOffset? address = some unit ↔
      ∃ earlier set later, index.sets = earlier ++ set :: later ∧ set.Covers address ∧
        (∀ other ∈ earlier, ¬other.Covers address) ∧ set.unitOffset = unit := by
  unfold unitOffset?
  rw [Option.map_eq_some_iff]
  simp only [List.find?_eq_some_iff_append, RangeSet.covers_iff]
  constructor
  · rintro ⟨set, ⟨covers, earlier, later, split, others⟩, unit⟩
    exact ⟨earlier, set, later, split, covers, by simpa using others, unit⟩
  · rintro ⟨earlier, set, later, split, covers, others, unit⟩
    exact ⟨set, ⟨covers, earlier, later, split, by simpa using others⟩, unit⟩

theorem unitOffset?_eq_none_iff {index : AddressIndex} {address : UInt64} :
    index.unitOffset? address = none ↔ ∀ set ∈ index.sets, ¬set.Covers address := by
  unfold unitOffset?
  rw [Option.map_eq_none_iff, List.find?_eq_none]
  simp only [RangeSet.covers_iff]

/-- Sets that are read tile their section, each with its tuples inside. An address belongs to the
first set with a range that has it, where the end of a range is not wrapped around and segments do
not matter; it belongs to none if no range of any set has it. Whatever the bytes are, the reading
ends, with at most one set for every four of them. -/
theorem sets_tile_section :
    (∀ addressRanges index, decode addressRanges = .ok index →
      Tiles addressRanges 0 index.sets) ∧
    (∀ (index : AddressIndex) address unit, index.unitOffset? address = some unit ↔
      ∃ earlier set later, index.sets = earlier ++ set :: later ∧ set.Covers address ∧
        (∀ other ∈ earlier, ¬other.Covers address) ∧ set.unitOffset = unit) ∧
    (∀ (index : AddressIndex) address, index.unitOffset? address = none ↔
      ∀ set ∈ index.sets, ¬set.Covers address) ∧
    ∀ addressRanges, ∃ count, 4 * count ≤ addressRanges.length ∧
      Walk count (.ofSection .addressRanges addressRanges)
        (AddressIndex.sets <$> decode addressRanges) := by
  refine ⟨?_, ?_, ?_, ?_⟩
  · intro addressRanges index decodes
    obtain ⟨written, wellFormed, rfl, placed⟩ := decode_eq_ok_iff.mp decodes
    rw [placed]
    exact tiles_place [] wellFormed
  · intro index address unit
    exact unitOffset?_eq_some_iff
  · intro index address
    exact unitOffset?_eq_none_iff
  · intro addressRanges
    obtain ⟨count, few, walk⟩ := exists_walk (.ofSection .addressRanges addressRanges)
    refine ⟨count, few, ?_⟩
    have same : AddressIndex.sets <$> decode addressRanges =
        (·.1) <$> decoder.run (.ofSection .addressRanges addressRanges) := by
      unfold decode
      rw [Decoder.runAt_of_le (Nat.zero_le _), List.drop_zero]
      change _ = (·.1) <$> decoder.run (.startingAt .addressRanges 0 addressRanges)
      cases decoder.run (.startingAt .addressRanges 0 addressRanges) <;> rfl
    rw [same]
    exact walk

/-- A set whose only range is empty, and stands in a segment. -/
def emptySet : WrittenRangeSet where
  unitOffset := 0x10
  addressWidth := .four
  segmentWidth := some .two
  ranges := [{ segment := 1, address := 0x8000, length := 0 }]
  padding := [0, 0, 0, 0, 0, 0, 0, 0]
  trailing? := none

/-- A set whose range ends at the very top, with a byte behind its zeros. -/
def topmostSet : WrittenRangeSet where
  unitOffset := 0x40
  addressWidth := .eight
  segmentWidth := none
  ranges := [{ segment := 0, address := 0xfffffffffffffff0, length := 0x10 }]
  padding := [0, 0, 0, 0]
  trailing? := some [7]

def topmostIndex : AddressIndex where
  sets := [emptySet.placedAt 0, topmostSet.placedAt 30]

theorem sets_tile_section_topmost :
    Tiles (emptySet.encode ++ topmostSet.encode) 0 topmostIndex.sets ∧
      topmostIndex.unitOffset? 0xffffffffffffffff = some 0x40 ∧
      topmostIndex.unitOffset? 0x8000 = none := by
  obtain ⟨tile, finds, findsNone, _⟩ := sets_tile_section
  refine ⟨tile _ topmostIndex (by decide +kernel), ?_, ?_⟩
  · rw [finds]
    have covers : (topmostSet.placedAt 30).Covers 0xffffffffffffffff := by
      unfold RangeSet.Covers
      decide
    have others : ∀ other ∈ [emptySet.placedAt 0], ¬other.Covers 0xffffffffffffffff := by
      unfold RangeSet.Covers
      decide
    exact ⟨[emptySet.placedAt 0], topmostSet.placedAt 30, [], rfl, covers, others, rfl⟩
  · rw [findsNone]
    unfold RangeSet.Covers
    decide

end AddressIndex

end Symbolication
