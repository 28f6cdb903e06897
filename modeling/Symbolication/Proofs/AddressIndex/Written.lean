import Symbolication.Proofs.AddressIndex

/-!
Address range sections that are read are those that are written: each set is a header, its tuples,
and what trails a tuple of zeros. So reading accepts exactly what is written.
-/

namespace Symbolication

namespace CoveredRange

theorem length_encode (addressWidth : Width) (segmentWidth : Option Width) (range : CoveredRange) :
    (range.encode addressWidth segmentWidth).length =
      RangeSet.tupleSize addressWidth segmentWidth := by
  unfold encode encodeSegment RangeSet.tupleSize
  cases segmentWidth with
  | none =>
      simp only [Option.elim_none, List.length_append, List.length_nil, Bytes.length_ofNumber]
      omega
  | some width =>
      simp only [Option.elim_some, List.length_append, Bytes.length_ofNumber]
      omega

def zero : CoveredRange := { segment := 0, address := 0, length := 0 }

theorem eq_zero_of_isZero {range : CoveredRange} (zeros : range.IsZero) : range = zero := by
  obtain ⟨segment, address, length⟩ := range
  obtain ⟨rfl, rfl, rfl⟩ := zeros
  rfl

end CoveredRange

namespace RangeSet

section Taken

variable {addressWidth : Width} {segmentWidth : Option Width} {cursor next : Cursor}

theorem segment_of_run {segment : UInt64}
    (outcome : (segmentWidth.elim (pure 0) Decoder.word).run cursor = .ok (segment, next)) :
    cursor.Passes (CoveredRange.encodeSegment segmentWidth segment) next ∧
      segment.toNat < segmentWidth.elim 1 fun width => 256 ^ width.bytes := by
  cases segmentWidth with
  | none =>
      cases outcome
      exact ⟨.refl cursor, by decide⟩
  | some width => exact Decoder.word_of_run outcome

theorem segmentWidth_of_run
    (outcome : Decoder.segmentWidth.run cursor = .ok (segmentWidth, next)) :
    cursor.Passes [WrittenRangeSet.encodeSegmentWidth segmentWidth] next := by
  obtain ⟨⟨start, size⟩, middle, located, checks⟩ := Decoder.run_bind_eq_ok.mp outcome
  obtain ⟨_, _, here, located⟩ := Decoder.run_bind_eq_ok.mp located
  cases here
  obtain ⟨_, _, reads, finish⟩ := Decoder.run_bind_eq_ok.mp located
  cases finish
  have passes := Decoder.byte_of_run reads
  dsimp only at checks
  split at checks
  · rename_i none
    cases checks
    rwa [none] at passes
  · rw [Decoder.run_map] at checks
    split at checks <;> cases checks
    rename_i width checked
    obtain ⟨rfl, rfl⟩ := Decoder.checkedWidth_of_run checked
    exact passes

/-- The next tuple, unless it is all zero. -/
def tuple? (addressWidth : Width) (segmentWidth : Option Width) : Decoder (Option CoveredRange) :=
  tupleHead addressWidth segmentWidth >>= fun (segment, address) => do
    let length ← Decoder.word addressWidth
    pure (if segment = 0 ∧ address = 0 ∧ length = 0 then none
      else some { segment, address, length })

theorem tuple?_of_run {range? : Option CoveredRange}
    (outcome : (tuple? addressWidth segmentWidth).run cursor = .ok (range?, next)) :
    ∃ range : CoveredRange, range.Fits addressWidth segmentWidth ∧
      cursor.Passes (range.encode addressWidth segmentWidth) next ∧
        (range.IsZero ∧ range? = none ∨ ¬range.IsZero ∧ range? = some range) := by
  obtain ⟨⟨segment, address⟩, behindHead, reads, lengthReads⟩ := Decoder.run_bind_eq_ok.mp outcome
  obtain ⟨_, _, segmentReads, reads⟩ := Decoder.run_bind_eq_ok.mp reads
  obtain ⟨_, _, addressReads, finish⟩ := Decoder.run_bind_eq_ok.mp reads
  cases finish
  obtain ⟨length, _, lengthReads, finish⟩ := Decoder.run_bind_eq_ok.mp lengthReads
  obtain ⟨passesSegment, segmentFits⟩ := segment_of_run segmentReads
  obtain ⟨passesAddress, addressFits⟩ := Decoder.word_of_run addressReads
  obtain ⟨passesLength, lengthFits⟩ := Decoder.word_of_run lengthReads
  refine ⟨{ segment, address, length }, ⟨segmentFits, addressFits, lengthFits⟩, ?_, ?_⟩
  · cases finish
    exact (passesSegment.trans passesAddress).trans passesLength
  · by_cases zeros : segment = 0 ∧ address = 0 ∧ length = 0
    · rw [if_pos zeros] at finish
      cases finish
      exact .inl ⟨zeros, rfl⟩
    · rw [if_neg zeros] at finish
      cases finish
      exact .inr ⟨zeros, rfl⟩

/-- The bytes behind the last tuple: nothing, or a tuple of zeros and what trails it. -/
def encodeRest (addressWidth : Width) (segmentWidth : Option Width) (trailing? : Option Bytes) :
    Bytes :=
  trailing?.elim [] fun trailing => CoveredRange.zero.encode addressWidth segmentWidth ++ trailing

theorem tuples_of_run {ranges : List CoveredRange}
    (outcome : (tuples addressWidth segmentWidth).run cursor = .ok (ranges, next)) :
    (∀ range ∈ ranges, range.Fits addressWidth segmentWidth ∧ ¬range.IsZero) ∧
      ∃ trailing?, cursor.rest =
        ranges.flatMap (CoveredRange.encode addressWidth segmentWidth) ++
          encodeRest addressWidth segmentWidth trailing? := by
  unfold tuples Decoder.itemsWhileLeft at outcome
  refine Decoder.items_induction (motive := fun cursor ranges =>
    (∀ range ∈ ranges, range.Fits addressWidth segmentWidth ∧ ¬range.IsZero) ∧
      ∃ trailing?, cursor.rest =
        ranges.flatMap (CoveredRange.encode addressWidth segmentWidth) ++
          encodeRest addressWidth segmentWidth trailing?) ?_ ?_ outcome
  · intro cursor next finish
    rw [Decoder.run_itemIfLeft] at finish
    split at finish
    · rename_i finished
      exact ⟨by simp, none, List.isEmpty_iff.mp finished⟩
    · obtain ⟨range, _, passes, ⟨zeros, _⟩ | ⟨_, impossible⟩⟩ := tuple?_of_run finish
      · cases CoveredRange.eq_zero_of_isZero zeros
        exact ⟨by simp, some next.rest, passes.1⟩
      · cases impossible
  · intro cursor next value ranges step induction
    rw [Decoder.run_itemIfLeft] at step
    split at step
    · cases step
    · obtain ⟨range, fits, passes, ⟨_, impossible⟩ | ⟨nonzero, same⟩⟩ := tuple?_of_run step
      · cases impossible
      · cases same
        obtain ⟨others, trailing?, behind⟩ := induction
        refine ⟨List.forall_mem_cons.mpr ⟨⟨fits, nonzero⟩, others⟩, trailing?, ?_⟩
        rw [passes.1, behind, List.flatMap_cons, List.append_assoc]

/-- Contents that are read are those of a set as it is written. -/
theorem written_of_run {start : Nat} {set : RangeSet}
    (outcome : (contents start).run cursor = .ok (set, next)) :
    ∃ written : WrittenRangeSet, cursor.rest = written.encodeContents ∧
      set = written.placedAt start ∧ written.unitOffset < 2 ^ 32 ∧
      written.padding.length = padding (tupleSize written.addressWidth written.segmentWidth) ∧
      ∀ range ∈ written.ranges,
        range.Fits written.addressWidth written.segmentWidth ∧ ¬range.IsZero := by
  obtain ⟨number, _, numberReads, outcome⟩ := Decoder.run_bind_eq_ok.mp outcome
  split at outcome
  · cases outcome
  · rename_i supported
    cases Decidable.of_not_not supported
    obtain ⟨unitOffset, _, unitReads, outcome⟩ := Decoder.run_bind_eq_ok.mp outcome
    obtain ⟨addressWidth, _, addressReads, outcome⟩ := Decoder.run_bind_eq_ok.mp outcome
    obtain ⟨segmentWidth, _, segmentReads, outcome⟩ := Decoder.run_bind_eq_ok.mp outcome
    obtain ⟨_, _, skips, outcome⟩ := Decoder.run_bind_eq_ok.mp outcome
    obtain ⟨ranges, _, rangesRead, finish⟩ := Decoder.run_bind_eq_ok.mp outcome
    cases finish
    obtain ⟨padding, length, passesPadding⟩ := Decoder.skip_of_run skips
    obtain ⟨admitted, trailing?, behind⟩ := tuples_of_run rangesRead
    have passes := (Decoder.uint16_of_run numberReads).trans
      ((Decoder.uint32_of_run unitReads).trans ((Decoder.addressWidth_of_run addressReads).trans
        ((segmentWidth_of_run segmentReads).trans passesPadding)))
    let written : WrittenRangeSet := {
      unitOffset := unitOffset.toNat, addressWidth, segmentWidth, ranges, padding, trailing? }
    refine ⟨written, ?_, rfl, unitOffset.toNat_lt, length, admitted⟩
    have rest : written.encodeEnding ++ written.trailing?.getD [] =
        encodeRest addressWidth segmentWidth trailing? := by
      cases trailing? <;> rfl
    rw [passes.1, behind, ← rest]
    simp only [WrittenRangeSet.encodeContents, WrittenRangeSet.encodeFields, List.append_assoc]
    rfl

end Taken

end RangeSet

namespace AddressIndex

variable {cursor next : Cursor}

/-- The next set of a section. -/
def set? : Decoder (Option RangeSet) :=
  Decoder.located .initialLength >>= fun (start, length) => do
    let window ← Decoder.window length
    let set ← Decoder.within window (RangeSet.contents start)
    pure (some set)

theorem set?_ne_none : set?.run cursor ≠ .ok (none, next) := by
  intro outcome
  obtain ⟨_, _, _, reads⟩ := Decoder.run_bind_eq_ok.mp outcome
  obtain ⟨_, _, _, reads⟩ := Decoder.run_bind_eq_ok.mp reads
  obtain ⟨_, _, _, finish⟩ := Decoder.run_bind_eq_ok.mp reads
  cases finish

theorem decoder_run_finished {cursor : Cursor} (finished : cursor.isFinished = true) :
    decoder.run cursor = .ok ([], cursor) := by
  unfold decoder Decoder.itemsWhileLeft
  rw [Decoder.run_items, Decoder.run_itemIfLeft, finished]
  rfl

theorem decoder_run_more {cursor : Cursor} (more : cursor.isFinished = false) :
    decoder.run cursor = set?.run cursor >>= fun found =>
      found.1.elim (.ok ([], found.2)) fun set =>
        decoder.run found.2 >>= fun others => .ok (set :: others.1, others.2) := by
  have item : (Decoder.itemIfLeft (.located .initialLength) fun (start, length) => do
      let window ← Decoder.window length
      let set ← Decoder.within window (RangeSet.contents start)
      pure (some set)).run cursor = set?.run cursor := by
    rw [Decoder.run_itemIfLeft, more]
    rfl
  unfold decoder Decoder.itemsWhileLeft
  rw [Decoder.run_items, item]
  cases set?.run cursor with
  | error error => rfl
  | ok found =>
      obtain ⟨_ | set, next⟩ := found
      · rfl
      · dsimp only [Bind.bind, Except.bind, Option.elim]
        split <;> simp_all

/-- A set that is read is the one that stands there as it is written. -/
theorem written_of_set? {set : RangeSet} (outcome : set?.run cursor = .ok (some set, next)) :
    ∃ written : WrittenRangeSet, written.WellFormed ∧ cursor.Passes written.encode next ∧
      set = written.placedAt cursor.offset := by
  obtain ⟨⟨start, length⟩, middle, located, reads⟩ := Decoder.run_bind_eq_ok.mp outcome
  cases Decoder.start_of_located located
  obtain ⟨_, _, here, located⟩ := Decoder.run_bind_eq_ok.mp located
  cases here
  obtain ⟨_, _, lengthReads, finish⟩ := Decoder.run_bind_eq_ok.mp located
  cases finish
  obtain ⟨below, passesLength⟩ := Decoder.initialLength_of_run lengthReads
  obtain ⟨window, behind, opens, reads⟩ := Decoder.run_bind_eq_ok.mp reads
  obtain ⟨contents, rfl, rfl, passesContents⟩ := Decoder.window_of_run opens
  obtain ⟨_, _, inner, finish⟩ := Decoder.run_bind_eq_ok.mp reads
  cases finish
  obtain ⟨rfl, final, inner⟩ := Decoder.within_of_run inner
  obtain ⟨written, stands, rfl, unitOffset, padding, admitted⟩ := RangeSet.written_of_run inner
  cases stands
  exact ⟨written,
    { unitOffset, padding
      fits := fun range member => (admitted range member).1
      nonzero := fun range member => (admitted range member).2
      length := below },
    passesLength.trans passesContents, rfl⟩

theorem written_of_decoder {sets : List RangeSet}
    (outcome : decoder.run cursor = .ok (sets, next)) :
    ∃ written : List WrittenRangeSet, (∀ set ∈ written, set.WellFormed) ∧
      cursor.rest = written.flatMap WrittenRangeSet.encode ∧
        sets = WrittenRangeSet.place cursor.offset written := by
  unfold decoder Decoder.itemsWhileLeft at outcome
  refine Decoder.items_induction (motive := fun cursor sets =>
    ∃ written : List WrittenRangeSet, (∀ set ∈ written, set.WellFormed) ∧
      cursor.rest = written.flatMap WrittenRangeSet.encode ∧
        sets = WrittenRangeSet.place cursor.offset written) ?_ ?_ outcome
  · intro cursor next finish
    rw [Decoder.run_itemIfLeft] at finish
    split at finish
    · rename_i finished
      exact ⟨[], by simp, List.isEmpty_iff.mp finished, rfl⟩
    · exact absurd finish set?_ne_none
  · intro cursor next set sets step induction
    rw [Decoder.run_itemIfLeft] at step
    split at step
    · cases step
    · obtain ⟨first, wellFormed, passes, rfl⟩ := written_of_set? step
      obtain ⟨written, others, behind, rfl⟩ := induction
      refine ⟨first :: written, List.forall_mem_cons.mpr ⟨wellFormed, others⟩, ?_, ?_⟩
      · rw [passes.1, behind, List.flatMap_cons]
      · rw [WrittenRangeSet.place, passes.offset_eq]

/-- Reading accepts exactly what is written. -/
theorem decode_eq_ok_iff {addressRanges : Bytes} {index : AddressIndex} :
    decode addressRanges = .ok index ↔
      ∃ written : List WrittenRangeSet, (∀ set ∈ written, set.WellFormed) ∧
        addressRanges = written.flatMap WrittenRangeSet.encode ∧
          index.sets = WrittenRangeSet.place 0 written := by
  constructor
  · intro decodes
    unfold decode at decodes
    cases reads : decoder.runAt .addressRanges addressRanges 0 with
    | error error =>
        rw [reads] at decodes
        cases decodes
    | ok sets =>
        rw [reads] at decodes
        cases decodes
        obtain ⟨_, next, outcome⟩ := Decoder.runAt_eq_ok.mp reads
        exact written_of_decoder outcome
  · rintro ⟨written, wellFormed, stands, placed⟩
    rw [stands, decode_encode written wellFormed, ← placed]

end AddressIndex

end Symbolication
