import Symbolication.Proofs.AddressIndex.Concatenation
import Symbolication.Proofs.Checked.Repetition
import Symbolication.RangeList

/-!
Readings of the index of address ranges and of range lists. The size of a tuple is a divisor, and
the size of an address says how far the all ones are shifted; both sizes are checked where they are
read.
-/

namespace Symbolication

def CoveredRange.containsChecked (range : CoveredRange) (address : UInt64) : Checked Bool :=
  if range.address ≤ address then do
    let distance ← Checked.subtract address range.address
    pure (distance < range.length)
  else pure false

theorem CoveredRange.containsChecked_eq (range : CoveredRange) (address : UInt64) :
    range.containsChecked address = .ok (range.contains address) := by
  unfold containsChecked contains
  by_cases behind : range.address ≤ address
  · rw [if_pos behind, Checked.bind_of_ok (Checked.subtract_eq_ok behind), decide_eq_true behind,
      Bool.true_and]
    rfl
  · rw [if_neg behind, decide_eq_false behind, Bool.false_and]
    rfl

namespace RangeSet

def paddingChecked (tupleSize : Nat) : Checked Nat := do
  let excess ← Checked.remainder headerSize tupleSize
  let missing ← Checked.subtract tupleSize excess
  Checked.remainder missing tupleSize

def addressWidthReading : Reading Width := do
  let (start, size) ← Reading.locatedBehind
  Reading.checkedWidth start size

def segmentWidthReading : Reading (Option Width) := do
  let (start, size) ← Reading.locatedBehind
  if size = 0 then pure none else some <$> Reading.checkedWidth start size

def tupleHeadReading (addressWidth : Width) (segmentWidth : Option Width) :
    Reading (UInt64 × UInt64) := do
  let segment ← segmentWidth.elim (pure 0) Reading.word
  let address ← Reading.word addressWidth
  pure (segment, address)

def tuplesReading (addressWidth : Width) (segmentWidth : Option Width) :
    Reading (List CoveredRange) :=
  .itemsWhileLeft (tupleHeadReading addressWidth segmentWidth) fun (segment, address) => do
    let length ← Reading.word addressWidth
    pure (if segment = 0 ∧ address = 0 ∧ length = 0 then none
      else some { segment, address, length })

def contentsReading (start : Nat) : Reading RangeSet := do
  let number ← Reading.uint16
  if number ≠ version then
    Reading.failAt start (.unsupportedVersion number)
  else
    let unitOffset ← Reading.uint32
    let addressWidth ← addressWidthReading
    let segmentWidth ← segmentWidthReading
    let padding ← (paddingChecked (tupleSize addressWidth segmentWidth) : Checked Nat)
    Reading.skip padding
    let ranges ← tuplesReading addressWidth segmentWidth
    pure { offset := start, unitOffset := unitOffset.toNat, addressWidth, segmentWidth, ranges }

def reading : Reading RangeSet := do
  let (start, length) ← Reading.located Reading.initialLength
  let window ← Reading.window length
  Reading.within window (contentsReading start)

variable {floor : Nat}

theorem paddingChecked_eq {tupleSize : Nat} (positive : 0 < tupleSize) :
    paddingChecked tupleSize = .ok (padding tupleSize) := by
  have nonzero : tupleSize ≠ 0 := Nat.ne_of_gt positive
  have room : headerSize % tupleSize ≤ tupleSize := Nat.le_of_lt (Nat.mod_lt _ positive)
  unfold paddingChecked
  rw [Checked.bind_of_ok (Checked.remainder_eq_ok nonzero),
    Checked.bind_of_ok (Checked.subtract_eq_ok room)]
  exact Checked.remainder_eq_ok nonzero

theorem addressWidthReading_follows :
    Follows floor Eq addressWidthReading Decoder.addressWidth :=
  Follows.locatedBehind.bind_eq fun _ => .checkedWidth _ _

theorem segmentWidthReading_follows :
    Follows floor Eq segmentWidthReading Decoder.segmentWidth := by
  apply Follows.locatedBehind.bind_eq
  rintro ⟨start, size⟩
  exact .ite Iff.rfl (fun _ => .pure rfl) fun _ => (Follows.checkedWidth _ _).map_eq _

theorem tupleHeadReading_follows (addressWidth : Width) (segmentWidth : Option Width) :
    Follows floor Eq (tupleHeadReading addressWidth segmentWidth)
      (tupleHead addressWidth segmentWidth) := by
  have segments : Follows floor Eq (segmentWidth.elim (pure 0) Reading.word)
      (segmentWidth.elim (pure 0) Decoder.word) := by
    cases segmentWidth with
    | none => exact .pure rfl
    | some width => exact (Reading.word_performs width).follows
  exact segments.bind_eq fun _ => (Reading.word_performs _).follows.bind_eq fun _ => .pure rfl

theorem tuplesReading_follows (addressWidth : Width) (segmentWidth : Option Width) :
    Follows floor Eq (tuplesReading addressWidth segmentWidth)
      (tuples addressWidth segmentWidth) := by
  apply Follows.itemsWhileLeft _ (tupleHeadReading_follows addressWidth segmentWidth)
  rintro ⟨segment, address⟩ _ rfl
  exact (Reading.word_performs _).follows.bind_eq fun _ => .pure rfl

theorem contentsReading_follows (start : Nat) :
    Follows floor Eq (contentsReading start) (contents start) := by
  apply Reading.uint16_performs.follows.bind_eq
  intro number
  apply Follows.ite Iff.rfl
  · intro _
    exact .failAt _ _
  · intro _
    apply Reading.uint32_performs.follows.bind_eq
    intro unitOffset
    apply addressWidthReading_follows.bind_eq
    intro addressWidth
    apply segmentWidthReading_follows.bind_eq
    intro segmentWidth
    apply Follows.checked (paddingChecked_eq (tupleSize_pos addressWidth segmentWidth))
    apply (Reading.skip_performs _).follows.bind_eq
    intro _
    exact (tuplesReading_follows _ _).bind_eq fun _ => .pure rfl

theorem reading_follows :
    Follows floor (fun set set? => set? = some set) reading AddressIndex.set? := by
  apply (Follows.located .initialLength).bind_eq
  rintro ⟨start, length⟩
  apply (Follows.window length).bind
  intro window' window stands
  have within : Follows floor Eq (Reading.within window' (contentsReading start))
      (Decoder.within window (contents start)) :=
    .within stands (contentsReading_follows start)
  rw [← bind_pure (Reading.within window' (contentsReading start))]
  exact within.bind_eq fun _ => .pure rfl

end RangeSet

namespace AddressIndex

/-- The sets from an offset on, each read by a reader of its own. There are no more than `count`
of them. -/
def setsChecked (addressRanges : Bytes) : Nat → Nat → ExceptT DecodeError Checked (List RangeSet)
  | 0, _ => (throw Trap.rounds : Checked (List RangeSet))
  | count + 1, offset =>
      if offset < addressRanges.length then do
        let reader ← Reader.startAt .addressRanges addressRanges offset
        let (set, behind) ← RangeSet.reading.result reader
        let sets ← setsChecked addressRanges count behind.offset
        pure (set :: sets)
      else pure []

def decodeChecked (addressRanges : Bytes) : ExceptT DecodeError Checked AddressIndex := do
  let sets ← setsChecked addressRanges (addressRanges.length + 1) 0
  pure { sets }

def unitOffsetChecked (index : AddressIndex) (address : UInt64) : Checked (Option Nat) := do
  let set? ← index.sets.findM? fun set => set.ranges.anyM (·.containsChecked address)
  pure (set?.map (·.unitOffset))

theorem set?_consumes : set?.Consumes :=
  (Decoder.located_consumes Decoder.initialLength_consumes).bind _

/-- What a cursor has ahead remains the rest of its section. -/
theorem rest_of_reaches {bytes : Bytes} {cursor next : Cursor} (reaches : cursor.Reaches next)
    (rest : cursor.rest = bytes.drop cursor.offset) (inside : cursor.offset ≤ bytes.length) :
    next.rest = bytes.drop next.offset ∧ next.offset ≤ bytes.length := by
  have stop := reaches.stop_eq
  obtain ⟨taken, split, place⟩ := reaches
  have moved : next.offset = cursor.offset + taken.length := by
    rw [place, Cursor.offset_after]
  constructor
  · rw [moved, ← List.drop_drop, ← rest, split, List.drop_left]
  · unfold Cursor.stop Cursor.left at stop
    rw [rest, List.length_drop] at stop
    omega

theorem isFinished_of_rest {bytes : Bytes} {cursor : Cursor}
    (rest : cursor.rest = bytes.drop cursor.offset) :
    cursor.isFinished = decide (bytes.length ≤ cursor.offset) := by
  unfold Cursor.isFinished
  rw [rest, Bool.eq_iff_iff, List.isEmpty_iff, List.drop_eq_nil_iff, decide_eq_true_iff]

theorem setsChecked_settles {addressRanges : Bytes} {count : Nat} {cursor : Cursor}
    (source : cursor.source = .addressRanges)
    (rest : cursor.rest = addressRanges.drop cursor.offset)
    (inside : cursor.offset ≤ addressRanges.length) (enough : cursor.left < count) :
    Settles (fun sets found => sets = found.1) (setsChecked addressRanges count cursor.offset)
      (decoder.run cursor) := by
  induction count generalizing cursor with
  | zero => exact absurd enough (Nat.not_lt_zero _)
  | succ count induction =>
      unfold setsChecked
      by_cases more : cursor.offset < addressRanges.length
      · have unfinished : cursor.isFinished = false := by
          rw [isFinished_of_rest rest]
          exact decide_eq_false (Nat.not_le.mpr more)
        rw [if_pos more, decoder_run_more unfinished]
        -- Each set has a reader of its own, which begins where the cursor of the decoder stands.
        apply (Reader.startAt_stands source rfl rest inside).bind_ok
        intro reader stands
        apply (RangeSet.reading_follows reader cursor stands (Nat.zero_le _)).bind
        rintro ⟨set, behind⟩ ⟨set?, next⟩ outcome ⟨rfl, standsBehind⟩
        have reaches := set?.reaches outcome
        obtain ⟨restNext, insideNext⟩ := rest_of_reaches reaches rest inside
        have fewer := set?_consumes _ _ _ outcome
        dsimp only [Option.elim]
        rw [standsBehind.offset]
        apply (induction (reaches.source_eq.trans source) restNext insideNext
          (Nat.lt_of_lt_of_le fewer (Nat.le_of_lt_succ enough))).bind
        rintro _ others _ rfl
        exact .pure rfl
      · have finished : cursor.isFinished = true := by
          rw [isFinished_of_rest rest]
          exact decide_eq_true (Nat.not_lt.mp more)
        rw [if_neg more, decoder_run_finished finished]
        exact .pure rfl

theorem decodeChecked_settles (addressRanges : Bytes) :
    Settles Eq (decodeChecked addressRanges) (decode addressRanges) := by
  have sets : Settles (fun sets found => sets = found.1)
      (setsChecked addressRanges (addressRanges.length + 1) 0)
      (decoder.run (.ofSection .addressRanges addressRanges)) :=
    setsChecked_settles rfl rfl (Nat.zero_le _) (Nat.lt_succ_self _)
  have decoded : decode addressRanges =
      decoder.run (.ofSection .addressRanges addressRanges) >>= fun found =>
        .ok { sets := found.1 } := by
    unfold decode Decoder.runAt Cursor.startAt
    rw [if_pos (Nat.zero_le _)]
    change ((decoder.run (.ofSection .addressRanges addressRanges) >>= fun found =>
      Except.ok found.1) >>= fun sets => Except.ok (AddressIndex.mk sets)) = _
    rw [bind_assoc]
    rfl
  rw [decoded]
  apply sets.bind
  rintro _ found _ rfl
  exact .pure rfl

theorem unitOffsetChecked_eq (index : AddressIndex) (address : UInt64) :
    index.unitOffsetChecked address = .ok (index.unitOffset? address) := by
  have contains : (fun (range : CoveredRange) => range.containsChecked address) =
      fun range => pure (range.contains address) :=
    funext fun range => range.containsChecked_eq address
  unfold unitOffsetChecked unitOffset?
  simp only [contains, List.anyM_pure, List.findM?_pure]
  rfl

end AddressIndex

namespace RangeList

/-- All ones, shifted to the size of an address. -/
def selectionChecked (addressSize : UInt8) : Checked UInt64 := do
  let amount ← Checked.subtract 64 (8 * addressSize.toNat)
  Checked.shiftRight 0xffffffffffffffff amount

def pairsReading (width : Width) : Reading (List Pair) :=
  .itemsUntil (.word width) fun first => do
    let second ← Reading.word width
    pure (if first = 0 ∧ second = 0 then none else some { first, second })

/-- The ranges that pairs mean, where `selection` announces a new base. -/
def rangesSelectedBy (selection : UInt64) : UInt64 → List Pair → List AddressRange
  | _, [] => []
  | base, pair :: rest =>
      if pair.first = selection then rangesSelectedBy selection pair.second rest
      else { start := base + pair.first, stop := base + pair.second } ::
        rangesSelectedBy selection base rest

def reading (width : Width) (addressSize : UInt8) (base : UInt64) :
    Reading (List AddressRange) := do
  let selection ← (selectionChecked addressSize : Checked UInt64)
  let pairs ← pairsReading width
  pure (rangesSelectedBy selection base pairs)

def decodeChecked (rangeLists : Bytes) (offset : Nat) (addressSize : UInt8) (base : UInt64) :
    ExceptT DecodeError Checked (List AddressRange) :=
  match Width.ofUInt8? addressSize with
  | none => throw { source := .rangeLists, offset, fault := .unsupportedAddressSize addressSize }
  | some width => (reading width addressSize base).runAt .rangeLists rangeLists offset

theorem selectionChecked_eq {addressSize : UInt8} {width : Width}
    (sized : Width.ofUInt8? addressSize = some width) :
    selectionChecked addressSize = .ok width.allOnes := by
  have size : addressSize = 1 ∧ width = .one ∨ addressSize = 2 ∧ width = .two ∨
      addressSize = 4 ∧ width = .four ∨ addressSize = 8 ∧ width = .eight := by
    unfold Width.ofUInt8? at sized
    grind
  obtain ⟨rfl, rfl⟩ | ⟨rfl, rfl⟩ | ⟨rfl, rfl⟩ | ⟨rfl, rfl⟩ := size <;> decide

theorem pairsReading_follows {floor : Nat} (width : Width) :
    Follows floor Eq (pairsReading width) (pairs width) :=
  .itemsUntil _ (Reading.word_performs width).follows fun _ =>
    (Reading.word_performs width).follows.bind_eq fun _ => .pure rfl

theorem rangesSelectedBy_allOnes (width : Width) (base : UInt64) (listed : List Pair) :
    rangesSelectedBy width.allOnes base listed = ranges width base listed := by
  induction listed generalizing base with
  | nil => rfl
  | cons pair rest induction =>
      unfold rangesSelectedBy ranges
      rw [induction, induction]

theorem reading_follows {floor : Nat} {addressSize : UInt8} {width : Width}
    (sized : Width.ofUInt8? addressSize = some width) (base : UInt64) :
    Follows floor (fun found listed => found = ranges width base listed)
      (reading width addressSize base) (pairs width) := by
  apply Follows.checked (selectionChecked_eq sized)
  rw [← bind_pure (pairs width)]
  apply (pairsReading_follows width).bind_eq
  intro listed
  exact .pure (rangesSelectedBy_allOnes width base listed)

theorem decodeChecked_settles (rangeLists : Bytes) (offset : Nat) (addressSize : UInt8)
    (base : UInt64) :
    Settles Eq (decodeChecked rangeLists offset addressSize base)
      (decode rangeLists offset addressSize base) := by
  unfold decodeChecked decode
  cases sized : Width.ofUInt8? addressSize with
  | none => exact .throw _
  | some width =>
      dsimp only
      rw [← bind_pure (Reading.runAt _ _ _ _)]
      apply ((reading_follows sized base).runAt .rangeLists rangeLists offset).bind
      rintro _ listed _ rfl
      exact .pure rfl

end RangeList

end Symbolication
