import Mathlib.Algebra.Group.Nat.Defs
import Symbolication.CompileUnit.Subprogram

/-!
The code of a subprogram as a set of addresses. A range list counts alone, and may fail to decode;
its ranges are relative to the base address of the unit. Without a list, the code goes from the low
address to where the high address says that it stops.
-/

namespace Symbolication.CompileUnit

/-- The number at which code that begins at `low` stops. The high address of an entry says it, or
gives the size of the code; a sum wraps at 64 bits. -/
inductive StopsAt (entry : Entry) (low : UInt64) : Nat → Prop
  | address {high : Attribute} {stop : UInt64} : entry.attribute? .highAddress = some high →
      high.form.formClass = .address → high.value = .address stop → StopsAt entry low stop.toNat
  | size {high : Attribute} {size : UInt64} : entry.attribute? .highAddress = some high →
      high.form.formClass = .constant → high.value.number? = some size →
        StopsAt entry low ((low.toNat + size.toNat) % 2 ^ 64)

/-- The address that the range lists of a unit are relative to: the low address of its first entry,
or zero where there is none, be it that the first entry is null or its low address no address. -/
inductive BasedAt (unit : CompileUnit) : UInt64 → Prop
  | root {root : Entry} {others : List Entry} {base : UInt64} : unit.entries = root :: others →
      root.code ≠ 0 → root.value? .lowAddress = some (.address base) → BasedAt unit base
  | zero : (∀ root others base, unit.entries = root :: others → root.code ≠ 0 →
      root.value? .lowAddress ≠ some (.address base)) → BasedAt unit 0

/-- The range list of an entry decodes to its ranges, or fails to. There is no outcome where the
entry has no list, or one that is no number. -/
inductive ListGives (unit : CompileUnit) (rangeLists : Bytes) (entry : Entry) :
    Except DecodeError (List AddressRange) → Prop
  | decoded {value : AttributeValue} {offset base : UInt64} :
      entry.value? .ranges = some value → value.number? = some offset → unit.BasedAt base →
        ListGives unit rangeLists entry
          (RangeList.decode rangeLists offset.toNat unit.header.addressWidth.toUInt8 base)

def ListFails (unit : CompileUnit) (rangeLists : Bytes) (entry : Entry)
    (error : DecodeError) : Prop :=
  unit.ListGives rangeLists entry (.error error)

/-- Whether the code of an entry contains an address. -/
inductive Covers (unit : CompileUnit) (rangeLists : Bytes) (entry : Entry) (address : UInt64) : Prop
  | listed {ranges : List AddressRange} {range : AddressRange} :
      unit.ListGives rangeLists entry (.ok ranges) → range ∈ ranges →
        range.start.toNat ≤ address.toNat → address.toNat < range.stop.toNat →
          Covers unit rangeLists entry address
  | contiguous {low : UInt64} {stop : Nat} :
      entry.value? .ranges = none → entry.value? .lowAddress = some (.address low) →
        StopsAt entry low stop → low.toNat ≤ address.toNat → address.toNat < stop →
          Covers unit rangeLists entry address

variable {unit : CompileUnit} {rangeLists : Bytes} {entry : Entry} {address low : UInt64}
  {error : DecodeError}

theorem any_contains_iff {ranges : List AddressRange} :
    ranges.any (·.contains address) = true ↔
      ∃ range ∈ ranges, range.start.toNat ≤ address.toNat ∧ address.toNat < range.stop.toNat := by
  simp [AddressRange.contains, UInt64.le_iff_toNat_le, UInt64.lt_iff_toNat_lt]

theorem address?_eq_some_iff {value : AttributeValue} {number : UInt64} :
    value.address? = some number ↔ value = .address number := by
  cases value <;> simp [AttributeValue.address?]

/-- The stop that a high address gives to code that begins at `low`. -/
def stop? (low : UInt64) (high : Attribute) : Option UInt64 :=
  match high.form.formClass with
  | .address => high.value.address?
  | .constant => high.value.number?.map (low + ·)
  | _ => none

theorem stop?_eq_some_iff {high : Attribute} {stop : UInt64} :
    stop? low high = some stop ↔
      high.form.formClass = .address ∧ high.value = .address stop ∨
      high.form.formClass = .constant ∧
        ∃ size, high.value.number? = some size ∧ low + size = stop := by
  unfold stop?
  cases high.form.formClass with
  | address => simp [address?_eq_some_iff]
  | constant => simp [Option.map_eq_some_iff]
  | _ => simp

theorem stopsAt_iff {number : Nat} :
    StopsAt entry low number ↔
      ∃ high stop, entry.attribute? .highAddress = some high ∧ stop? low high = some stop ∧
        stop.toNat = number := by
  constructor
  · rintro (⟨found, isAddress, stands⟩ | ⟨found, isConstant, means⟩)
    · exact ⟨_, _, found, stop?_eq_some_iff.mpr (.inl ⟨isAddress, stands⟩), rfl⟩
    · exact ⟨_, _, found, stop?_eq_some_iff.mpr (.inr ⟨isConstant, _, means, rfl⟩),
        UInt64.toNat_add _ _⟩
  · rintro ⟨high, stop, found, stops, rfl⟩
    rcases stop?_eq_some_iff.mp stops with ⟨isAddress, stands⟩ | ⟨isConstant, size, means, rfl⟩
    · exact .address found isAddress stands
    · rw [UInt64.toNat_add]
      exact .size found isConstant means

theorem contiguousCode_of_bounds {low : UInt64} {high : Attribute}
    (begins : entry.value? .lowAddress = some (.address low))
    (ends : entry.attribute? .highAddress = some high) :
    contiguousCode entry = ((stop? low high).map fun stop => { start := low, stop }).toList := by
  have isAddress : (some (AttributeValue.address low)).bind AttributeValue.address? = some low :=
    rfl
  unfold contiguousCode stop?
  rw [begins, ends, isAddress]
  dsimp only
  rw [Form.formClass?_code]
  cases high.form.formClass with
  | address => cases high.value.address? <;> rfl
  | constant => cases high.value.number? <;> rfl
  | _ => rfl

theorem mem_contiguousCode_iff {range : AddressRange} :
    range ∈ contiguousCode entry ↔
      entry.value? .lowAddress = some (.address range.start) ∧
        StopsAt entry range.start range.stop.toNat := by
  rw [stopsAt_iff]
  constructor
  · intro member
    have bounds : ∃ low high, (entry.value? .lowAddress).bind AttributeValue.address? = some low ∧
        entry.attribute? .highAddress = some high := by
      unfold contiguousCode at member
      split at member
      · exact ⟨_, _, ‹_›, ‹_›⟩
      · cases member
    obtain ⟨low, high, begins, ends⟩ := bounds
    obtain ⟨value, begins, isAddress⟩ := Option.bind_eq_some_iff.mp begins
    cases address?_eq_some_iff.mp isAddress
    rw [contiguousCode_of_bounds begins ends, Option.mem_toList] at member
    obtain ⟨stop, stops, rfl⟩ := Option.map_eq_some_iff.mp member
    exact ⟨begins, high, stop, ends, stops, rfl⟩
  · rintro ⟨begins, high, stop, ends, stops, same⟩
    cases UInt64.toNat_inj.mp same
    rw [contiguousCode_of_bounds begins ends, stops]
    exact List.mem_singleton.mpr rfl

theorem rootLowAddress_eq_some_iff {base : UInt64} :
    (unit.root?.bind (·.value? .lowAddress)).bind AttributeValue.address? = some base ↔
      ∃ root others, unit.entries = root :: others ∧ root.code ≠ 0 ∧
        root.value? .lowAddress = some (.address base) := by
  simp only [root?, Option.bind_eq_some_iff, Option.filter_eq_some_iff, List.head?_eq_some_iff,
    address?_eq_some_iff]
  constructor
  · rintro ⟨_, ⟨root, ⟨⟨others, split⟩, notNull⟩, low⟩, rfl⟩
    exact ⟨root, others, split, by simpa [EntryBody.isNull] using notNull, low⟩
  · rintro ⟨root, others, split, notNull, low⟩
    exact ⟨_, ⟨root, ⟨⟨others, split⟩, by simpa [EntryBody.isNull] using notNull⟩, low⟩, rfl⟩

theorem basedAt_baseAddress (unit : CompileUnit) : unit.BasedAt unit.baseAddress := by
  unfold baseAddress
  cases found : (unit.root?.bind (·.value? .lowAddress)).bind AttributeValue.address? with
  | some base =>
      obtain ⟨root, others, split, notNull, low⟩ := rootLowAddress_eq_some_iff.mp found
      exact .root split notNull low
  | none =>
      apply BasedAt.zero
      intro root others base split notNull low
      rw [rootLowAddress_eq_some_iff.mpr ⟨root, others, split, notNull, low⟩] at found
      cases found

theorem BasedAt.baseAddress_eq {base : UInt64} (based : unit.BasedAt base) :
    unit.baseAddress = base := by
  unfold baseAddress
  cases based with
  | root split notNull low =>
      rw [rootLowAddress_eq_some_iff.mpr ⟨_, _, split, notNull, low⟩]
      rfl
  | zero nowhere =>
      cases found : (unit.root?.bind (·.value? .lowAddress)).bind AttributeValue.address? with
      | none => rfl
      | some base =>
          obtain ⟨root, others, split, notNull, low⟩ := rootLowAddress_eq_some_iff.mp found
          exact absurd low (nowhere root others base split notNull)

theorem basedAt_iff {base : UInt64} : unit.BasedAt base ↔ unit.baseAddress = base := by
  constructor
  · exact BasedAt.baseAddress_eq
  · rintro rfl
    exact unit.basedAt_baseAddress

/-- The outcome of the range list of an entry, if it has one that is a number. -/
def listedCode? (unit : CompileUnit) (rangeLists : Bytes) (entry : Entry) :
    Option (Except DecodeError (List AddressRange)) :=
  ((entry.value? .ranges).bind (·.number?)).map fun offset =>
    RangeList.decode rangeLists offset.toNat unit.header.addressWidth.toUInt8 unit.baseAddress

theorem listGives_iff {result : Except DecodeError (List AddressRange)} :
    unit.ListGives rangeLists entry result ↔ unit.listedCode? rangeLists entry = some result := by
  unfold listedCode?
  rw [Option.map_eq_some_iff]
  constructor
  · rintro ⟨has, number, based⟩
    exact ⟨_, Option.bind_eq_some_iff.mpr ⟨_, has, number⟩, by rw [based.baseAddress_eq]⟩
  · rintro ⟨offset, found, rfl⟩
    obtain ⟨value, has, number⟩ := Option.bind_eq_some_iff.mp found
    exact .decoded has number unit.basedAt_baseAddress

theorem listedCode?_eq_none (without : entry.value? .ranges = none) :
    unit.listedCode? rangeLists entry = none := by
  unfold listedCode?
  rw [without]
  rfl

theorem not_listGives_of_unlisted (without : entry.value? .ranges = none)
    (result : Except DecodeError (List AddressRange)) :
    ¬unit.ListGives rangeLists entry result := by
  rintro ⟨has, _, _⟩
  rw [without] at has
  cases has

theorem Covers.not_fails (covers : unit.Covers rangeLists entry address) (error : DecodeError) :
    ¬unit.ListFails rangeLists entry error := by
  intro fails
  cases covers with
  | listed decodes =>
      have same := (listGives_iff.mp decodes).symm.trans (listGives_iff.mp fails)
      cases same
  | contiguous without => exact not_listGives_of_unlisted without _ fails

/-- The code of an entry, as the program computes it. -/
theorem code_eq (unit : CompileUnit) (rangeLists : Bytes) (entry : Entry) :
    unit.code rangeLists entry = (unit.listedCode? rangeLists entry).getD
      (.ok (if entry.value? .ranges = none then contiguousCode entry else [])) := by
  unfold code listedCode?
  cases entry.value? .ranges with
  | none => rfl
  | some value =>
      dsimp only [Option.bind_some]
      cases value.number? with
      | none => rfl
      | some offset =>
          dsimp only
          rw [DebugSection.count_eq]
          rfl

theorem code_eq_error_iff :
    unit.code rangeLists entry = .error error ↔ unit.ListFails rangeLists entry error := by
  unfold ListFails
  rw [code_eq, listGives_iff]
  cases unit.listedCode? rangeLists entry <;> simp

theorem covers_iff {ranges : List AddressRange}
    (decodes : unit.code rangeLists entry = .ok ranges) :
    unit.Covers rangeLists entry address ↔ ranges.any (·.contains address) = true := by
  rw [code_eq] at decodes
  rw [any_contains_iff]
  constructor
  · intro covers
    cases covers with
    | listed found member behind before =>
        rw [listGives_iff.mp found] at decodes
        cases decodes
        exact ⟨_, member, behind, before⟩
    | @contiguous low _ without begins stops behind before =>
        obtain ⟨_, stop, _, _, rfl⟩ := stopsAt_iff.mp stops
        rw [listedCode?_eq_none without, if_pos without] at decodes
        cases decodes
        exact ⟨{ start := low, stop }, mem_contiguousCode_iff.mpr ⟨begins, stops⟩, behind, before⟩
  · rintro ⟨range, member, behind, before⟩
    cases found : unit.listedCode? rangeLists entry with
    | none =>
        rw [found, Option.getD_none] at decodes
        cases decodes
        split at member
        · rename_i without
          obtain ⟨begins, stops⟩ := mem_contiguousCode_iff.mp member
          exact .contiguous without begins stops behind before
        · cases member
    | some result =>
        rw [found] at decodes
        cases decodes
        exact .listed (listGives_iff.mpr found) member behind before

theorem StopsAt.unique {number number' : Nat} (stops : StopsAt entry low number)
    (stops' : StopsAt entry low number') : number = number' := by
  obtain ⟨high, stop, ends, means, rfl⟩ := stopsAt_iff.mp stops
  obtain ⟨high', stop', ends', means', rfl⟩ := stopsAt_iff.mp stops'
  rw [ends] at ends'
  cases ends'
  rw [means] at means'
  cases means'
  rfl

theorem covers_contiguous_iff {stop : Nat} (without : entry.value? .ranges = none)
    (begins : entry.value? .lowAddress = some (.address low)) (stops : StopsAt entry low stop) :
    unit.Covers rangeLists entry address ↔ low.toNat ≤ address.toNat ∧ address.toNat < stop := by
  constructor
  · intro covers
    cases covers with
    | listed decodes => exact absurd decodes (not_listGives_of_unlisted without _)
    | contiguous _ begins' stops' behind before =>
        rw [begins] at begins'
        cases begins'
        rw [stops.unique stops']
        exact ⟨behind, before⟩
  · rintro ⟨behind, before⟩
    exact .contiguous without begins stops behind before

/-- An entry whose high address is neither an address nor a constant covers nothing, unless it has a
range list. -/
theorem not_covers_of_class {high : Attribute} (without : entry.value? .ranges = none)
    (ends : entry.attribute? .highAddress = some high) (notAddress : high.form.formClass ≠ .address)
    (notConstant : high.form.formClass ≠ .constant) : ¬unit.Covers rangeLists entry address := by
  intro covers
  cases covers with
  | listed decodes => exact not_listGives_of_unlisted without _ decodes
  | contiguous _ _ stops _ _ =>
      obtain ⟨high', stop, ends', means, _⟩ := stopsAt_iff.mp stops
      rw [ends] at ends'
      cases ends'
      rcases stop?_eq_some_iff.mp means with ⟨isAddress, _⟩ | ⟨isConstant, _⟩
      · exact notAddress isAddress
      · exact notConstant isConstant

/-- A subprogram is found to cover an address exactly where its code contains the address, and
reported exactly where its range list does not decode; other entries are passed over. -/
theorem coversAddress_eq_true_iff :
    unit.coversAddress rangeLists address entry = .ok true ↔
      entry.tag = .subprogram ∧ unit.Covers rangeLists entry address := by
  unfold coversAddress
  by_cases subprogram : entry.tag = .subprogram
  · rw [if_pos subprogram]
    cases decodes : unit.code rangeLists entry with
    | error error =>
        have fails := code_eq_error_iff.mp decodes
        constructor
        · intro found
          cases found
        · rintro ⟨_, covers⟩
          exact absurd fails (covers.not_fails error)
    | ok ranges =>
        rw [covers_iff decodes]
        constructor
        · intro found
          exact ⟨subprogram, Except.ok.inj found⟩
        · rintro ⟨_, contains⟩
          exact congrArg Except.ok contains
  · simp [subprogram]

theorem coversAddress_eq_error_iff :
    unit.coversAddress rangeLists address entry = .error error ↔
      entry.tag = .subprogram ∧ unit.ListFails rangeLists entry error := by
  unfold coversAddress
  by_cases subprogram : entry.tag = .subprogram
  · rw [if_pos subprogram, ← code_eq_error_iff]
    cases unit.code rangeLists entry with
    | error error' =>
        constructor
        · intro failed
          cases failed
          exact ⟨subprogram, rfl⟩
        · rintro ⟨_, failed⟩
          cases failed
          rfl
    | ok ranges =>
        constructor
        · intro failed
          cases failed
        · rintro ⟨_, failed⟩
          cases failed
  · simp [subprogram]

theorem coversAddress_of_unlisted (subprogram : entry.tag = .subprogram)
    (without : entry.value? .ranges = none) {covered : Prop} [Decidable covered]
    (covers : unit.Covers rangeLists entry address ↔ covered) :
    unit.coversAddress rangeLists address entry = .ok (decide covered) := by
  cases outcome : unit.coversAddress rangeLists address entry with
  | error error =>
      have fails := (coversAddress_eq_error_iff.mp outcome).2
      exact absurd fails (not_listGives_of_unlisted without _)
  | ok found =>
      have found_iff : unit.coversAddress rangeLists address entry = .ok true ↔ _ :=
        coversAddress_eq_true_iff
      rw [outcome, Except.ok.injEq, covers] at found_iff
      congr 1
      rw [Bool.eq_iff_iff, decide_eq_true_iff, found_iff]
      exact and_iff_right subprogram

end Symbolication.CompileUnit
