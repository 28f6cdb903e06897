import Mathlib.Order.Bounds.Basic
import Symbolication.Proofs.AddressIndex.Written

/-!
Address range sections one behind the other. A section that is read is a row of sets as they are
written, and such a row may go on with another one. The first of them that covers an address then
answers for it.
-/

namespace Symbolication

namespace RangeSet

/-- The same set, further on in its section. -/
def movedBy (distance : Nat) (set : RangeSet) : RangeSet :=
  { set with offset := set.offset + distance }

end RangeSet

namespace WrittenRangeSet

theorem place_movedBy (offset distance : Nat) (sets : List WrittenRangeSet) :
    (place offset sets).map (.movedBy distance) = place (offset + distance) sets := by
  induction sets generalizing offset with
  | nil => rfl
  | cons set sets induction =>
      rw [place, place, List.map_cons, induction, Nat.add_right_comm]
      rfl

theorem place_append (offset : Nat) (front behind : List WrittenRangeSet) :
    place offset (front ++ behind) =
      place offset front ++ place (offset + (front.flatMap encode).length) behind := by
  induction front generalizing offset with
  | nil => rfl
  | cons set front induction =>
      rw [List.cons_append, place, place, induction, List.flatMap_cons, List.length_append,
        Nat.add_assoc, List.cons_append]

end WrittenRangeSet

namespace AddressIndex

/-- The sets of one section, with those of another one whose bytes begin at an offset behind it. -/
def appendAt (first : AddressIndex) (offset : Nat) (second : AddressIndex) : AddressIndex where
  sets := first.sets ++ second.sets.map (.movedBy offset)

theorem decode_append {front behind : Bytes} {first second : AddressIndex}
    (decoded : decode front = .ok first) (decodedBehind : decode behind = .ok second) :
    decode (front ++ behind) = .ok (first.appendAt front.length second) := by
  obtain ⟨written, wellFormed, rfl, placed⟩ := decode_eq_ok_iff.mp decoded
  obtain ⟨others, wellFormedOthers, rfl, placedOthers⟩ := decode_eq_ok_iff.mp decodedBehind
  refine decode_eq_ok_iff.mpr ⟨written ++ others, ?_, List.flatMap_append.symm, ?_⟩
  · exact List.forall_mem_append.mpr ⟨wellFormed, wellFormedOthers⟩
  · rw [appendAt, placed, placedOthers, WrittenRangeSet.place_movedBy,
      WrittenRangeSet.place_append]

/-- A set that is moved still names the unit of the same addresses. -/
theorem unitOffset?_appendAt (first second : AddressIndex) (offset : Nat) (address : UInt64) :
    (first.appendAt offset second).unitOffset? address =
      (first.unitOffset? address).or (second.unitOffset? address) := by
  unfold unitOffset? appendAt
  rw [List.find?_append, List.find?_map, Option.map_or, Option.map_map]
  rfl

end AddressIndex

namespace WrittenRangeSet

/-- Whether the set can be written: every number has room in its field, no tuple is taken for the
last one, and the tuples begin at the first multiple of their size that is not in the header. -/
structure Writable (set : WrittenRangeSet) : Prop where
  unitOffset : set.unitOffset < 2 ^ 32
  aligned : IsLeast
    {place | RangeSet.headerSize ≤ place ∧
      RangeSet.tupleSize set.addressWidth set.segmentWidth ∣ place}
    (RangeSet.headerSize + set.padding.length)
  fits : ∀ range ∈ set.ranges, range.Fits set.addressWidth set.segmentWidth
  nonzero : ∀ range ∈ set.ranges, ¬range.IsZero
  length : set.encodeContents.length < 0xfffffff0

end WrittenRangeSet

namespace RangeSet

theorem tupleSize_pos (addressWidth : Width) (segmentWidth : Option Width) :
    0 < tupleSize addressWidth segmentWidth := by
  have positive := addressWidth.bytes_pos
  unfold tupleSize
  omega

theorem padding_isLeast {size : Nat} (positive : 0 < size) :
    IsLeast {place | headerSize ≤ place ∧ size ∣ place} (headerSize + padding size) := by
  unfold padding
  have split := Nat.div_add_mod headerSize size
  have bounded := Nat.mod_lt headerSize positive
  rcases Nat.eq_zero_or_pos (headerSize % size) with aligned | unaligned
  · have none : (size - headerSize % size) % size = 0 := by
      rw [aligned, Nat.sub_zero, Nat.mod_self]
    rw [none, Nat.add_zero]
    exact ⟨⟨Nat.le_refl _, Nat.dvd_of_mod_eq_zero aligned⟩, fun place multiple => multiple.1⟩
  · have some : (size - headerSize % size) % size = size - headerSize % size :=
      Nat.mod_eq_of_lt (by omega)
    have next : headerSize + (size - headerSize % size) = size * (headerSize / size + 1) := by
      rw [Nat.mul_add]
      omega
    rw [some, next]
    refine ⟨⟨by omega, Nat.dvd_mul_right _ _⟩, ?_⟩
    rintro place ⟨behind, factor, rfl⟩
    -- The multiple before would lie in the header.
    apply Nat.mul_le_mul_left
    rw [Nat.succ_le_iff]
    by_contra before
    have earlier : size * factor ≤ size * (headerSize / size) :=
      Nat.mul_le_mul_left size (Nat.le_of_not_lt before)
    omega

end RangeSet

theorem WrittenRangeSet.Writable.wellFormed {set : WrittenRangeSet} (writable : set.Writable) :
    set.WellFormed where
  unitOffset := writable.unitOffset
  padding := Nat.add_left_cancel
    (writable.aligned.unique (RangeSet.padding_isLeast (RangeSet.tupleSize_pos _ _)))
  fits := writable.fits
  nonzero := writable.nonzero
  length := writable.length

namespace AddressIndex

/-- Sets are read back in order, each at its place, whatever their widths and the bytes without a
meaning are. Of any two sections that are read, the one put behind the other adds its sets at their
new places, and answers for the addresses that the first does not cover. -/
theorem sets_read_back_and_append :
    (∀ sets : List WrittenRangeSet, (∀ set ∈ sets, set.Writable) →
      decode (sets.flatMap WrittenRangeSet.encode) =
        .ok { sets := WrittenRangeSet.place 0 sets }) ∧
      (∀ (front behind : Bytes) (first second : AddressIndex), decode front = .ok first →
        decode behind = .ok second →
          ∃ joined, decode (front ++ behind) = .ok joined ∧
            joined.sets = first.sets ++ second.sets.map (.movedBy front.length) ∧
            ∀ address, joined.unitOffset? address =
              (first.unitOffset? address).or (second.unitOffset? address)) := by
  refine ⟨?_, ?_⟩
  · intro sets writable
    exact decode_encode sets fun set member => (writable set member).wellFormed
  · intro front behind first second decoded decodedBehind
    exact ⟨_, decode_append decoded decodedBehind, rfl,
      unitOffset?_appendAt first second front.length⟩

/-- Two sets of different widths. The first ends at an odd offset, behind a byte that trails its
tuple of zeros; the second has four bytes in front of its tuples. -/
def sampleSets : List WrittenRangeSet := [
  { unitOffset := 0x10, addressWidth := .one, segmentWidth := some .four
    ranges := [{ segment := 0, address := 0, length := 5 }], padding := [], trailing? := some [7] },
  { unitOffset := 0x40, addressWidth := .four, segmentWidth := none
    ranges := [{ segment := 0, address := 0x8000, length := 0x10 }], padding := [1, 2, 3, 4]
    trailing? := none }]

theorem sampleSets_writable : ∀ set ∈ sampleSets, set.Writable := by
  unfold sampleSets
  rw [List.forall_mem_cons, List.forall_mem_singleton]
  constructor
  · exact {
      unitOffset := by decide
      aligned := RangeSet.padding_isLeast (RangeSet.tupleSize_pos .one (some .four))
      fits := List.forall_mem_singleton.mpr ⟨by decide, by decide, by decide⟩
      nonzero := by unfold CoveredRange.IsZero; decide
      length := by decide }
  · exact {
      unitOffset := by decide
      aligned := RangeSet.padding_isLeast (RangeSet.tupleSize_pos .four none)
      fits := List.forall_mem_singleton.mpr ⟨by decide, by decide, by decide⟩
      nonzero := by unfold CoveredRange.IsZero; decide
      length := by decide }

theorem sets_read_back_and_append_sample :
    ∃ index joined,
      decode (sampleSets.flatMap WrittenRangeSet.encode) = .ok index ∧
        index.sets.map (·.offset) = [0, 25] ∧
        decode (sampleSets.flatMap WrittenRangeSet.encode ++
          sampleSets.flatMap WrittenRangeSet.encode) = .ok joined ∧
        joined.sets.map (·.offset) = [0, 25, 49, 74] ∧
        joined.unitOffset? 0x800f = some 0x40 := by
  obtain ⟨reads, appends⟩ := sets_read_back_and_append
  have read := reads sampleSets sampleSets_writable
  obtain ⟨joined, readJoined, sets, answers⟩ := appends _ _ _ _ read read
  refine ⟨_, joined, read, by decide +kernel, readJoined, ?_, ?_⟩
  · rw [sets]
    decide +kernel
  · rw [answers]
    decide +kernel

end AddressIndex

end Symbolication
