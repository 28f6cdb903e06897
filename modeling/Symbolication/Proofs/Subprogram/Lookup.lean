import Symbolication.Proofs.Entry.Table
import Symbolication.Proofs.Subprogram.Code
import Symbolication.Proofs.UnitCache.Answer

/-!
The search for the function at an address. Subprograms are looked at in the order of the row, and
the first one that settles the matter answers for all: it covers the address, named or not, or its
range list cannot be decoded.
-/

namespace Symbolication.CompileUnit

/-- An entry has the text as its linkage name, as it is written. Where the standard attribute is
there, the vendor's does not count, even if the standard one is no text. -/
inductive WritesLinkageName (entry : Entry) (text : String) : Prop
  | standard : entry.value? .linkageName = some (.text text) → WritesLinkageName entry text
  | vendor : entry.value? .linkageName = none →
      entry.value? .vendorLinkageName = some (.text text) → WritesLinkageName entry text

/-- A subprogram at an index that covers the address, or whose range list does not decode. -/
structure Decides (unit : CompileUnit) (rangeLists : Bytes) (address : UInt64) (index : Nat)
    (entry : Entry) : Prop where
  found : unit.entries[index]? = some entry
  subprogram : entry.tag = .subprogram
  settles : unit.Covers rangeLists entry address ∨ ∃ error, unit.ListFails rangeLists entry error

structure DecidesFirst (unit : CompileUnit) (rangeLists : Bytes) (address : UInt64) (index : Nat)
    (entry : Entry) : Prop extends unit.Decides rangeLists address index entry where
  first : ∀ earlier < index, ∀ other, ¬unit.Decides rangeLists address earlier other

variable {unit : CompileUnit} {rangeLists : Bytes} {address : UInt64} {index : Nat} {entry : Entry}
  {error : DecodeError}

theorem text?_eq_some_iff {value : AttributeValue} {text : String} :
    value.text? = some text ↔ value = .text text := by
  cases value <;> simp [AttributeValue.text?]

theorem name?_eq_some_iff {name : String} :
    entry.name? = some name ↔ entry.value? .name = some (.text name) := by
  simp [EntryBody.name?, Option.bind_eq_some_iff, text?_eq_some_iff]

theorem name?_eq_none_iff :
    entry.name? = none ↔ ∀ name, entry.value? .name ≠ some (.text name) := by
  simp only [Option.eq_none_iff_forall_ne_some, ne_eq, name?_eq_some_iff]

theorem writesLinkageName_iff {text : String} :
    WritesLinkageName entry text ↔
      (entry.value? .linkageName <|> entry.value? .vendorLinkageName).bind AttributeValue.text? =
        some text := by
  simp only [Option.bind_eq_some_iff, text?_eq_some_iff, exists_eq_right]
  constructor
  · rintro (stands | ⟨absent, stands⟩)
    · rw [stands]
      rfl
    · rw [absent, stands]
      rfl
  · intro stands
    cases standard : entry.value? .linkageName with
    | some value =>
        rw [standard] at stands
        cases stands
        exact .standard standard
    | none =>
        rw [standard] at stands
        exact .vendor standard stands

theorem firstIndex?_append {test : Entry → Except DecodeError Bool} {front : List Entry}
    (passes : ∀ entry ∈ front, test entry = .ok false) (index : Nat) (others : List Entry) :
    firstIndex? test index (front ++ others) = firstIndex? test (index + front.length) others := by
  induction front generalizing index with
  | nil => rfl
  | cons entry front induction =>
      rw [List.forall_mem_cons] at passes
      rw [List.cons_append, firstIndex?, passes.1]
      dsimp only
      rw [induction passes.2, List.length_cons, Nat.add_right_comm, Nat.add_assoc]

theorem coversAddress_of_not_decides (found : unit.entries[index]? = some entry)
    (passed : ¬unit.Decides rangeLists address index entry) :
    unit.coversAddress rangeLists address entry = .ok false := by
  cases outcome : unit.coversAddress rangeLists address entry with
  | error error =>
      obtain ⟨subprogram, fails⟩ := coversAddress_eq_error_iff.mp outcome
      exact absurd ⟨found, subprogram, .inr ⟨error, fails⟩⟩ passed
  | ok covers =>
      cases covers with
      | false => rfl
      | true =>
          obtain ⟨subprogram, contains⟩ := coversAddress_eq_true_iff.mp outcome
          exact absurd ⟨found, subprogram, .inl contains⟩ passed

theorem not_decides_of_passed
    (passed : ∀ other ∈ unit.entries[index]?,
      unit.coversAddress rangeLists address other = .ok false) :
    ¬unit.Decides rangeLists address index entry := by
  rintro ⟨found, subprogram, settles⟩
  have outcome := passed entry found
  rcases settles with covers | ⟨error, fails⟩
  · rw [coversAddress_eq_true_iff.mpr ⟨subprogram, covers⟩] at outcome
    cases outcome
  · rw [coversAddress_eq_error_iff.mpr ⟨subprogram, fails⟩] at outcome
    cases outcome

theorem Decides.decidesFirst (decides : unit.Decides rangeLists address index entry)
    (passed : ∀ earlier < index, ∀ other ∈ unit.entries[earlier]?,
      unit.coversAddress rangeLists address other = .ok false) :
    unit.DecidesFirst rangeLists address index entry where
  toDecides := decides
  first earlier before _ := not_decides_of_passed (passed earlier before)

/-- What is in front of the first deciding subprogram is passed over. -/
theorem DecidesFirst.subprogramAt?_eq
    (decides : unit.DecidesFirst rangeLists address index entry) :
    unit.subprogramAt? rangeLists address =
      firstIndex? (unit.coversAddress rangeLists address) index
        (entry :: unit.entries.drop (index + 1)) := by
  obtain ⟨inside, rfl⟩ := List.getElem?_eq_some_iff.mp decides.found
  have passes : ∀ other ∈ unit.entries.take index,
      unit.coversAddress rangeLists address other = .ok false := by
    intro other member
    obtain ⟨earlier, before, rfl⟩ := List.mem_take_iff_getElem.mp member
    have found : unit.entries[earlier]? = some unit.entries[earlier] :=
      List.getElem?_eq_getElem (by omega)
    exact coversAddress_of_not_decides found (decides.first earlier (by omega) _)
  have length : 0 + (unit.entries.take index).length = index := by
    rw [List.length_take]
    omega
  have split : unit.entries =
      unit.entries.take index ++ unit.entries[index] :: unit.entries.drop (index + 1) := by
    rw [← List.drop_eq_getElem_cons, List.take_append_drop]
  unfold subprogramAt?
  conv_lhs => rw [split]
  rw [firstIndex?_append passes, length]

theorem DecidesFirst.subprogramAt?_of_covers
    (decides : unit.DecidesFirst rangeLists address index entry)
    (covers : unit.Covers rangeLists entry address) :
    unit.subprogramAt? rangeLists address = .ok (some index) := by
  rw [decides.subprogramAt?_eq, firstIndex?,
    coversAddress_eq_true_iff.mpr ⟨decides.subprogram, covers⟩]

theorem DecidesFirst.subprogramAt?_of_fails
    (decides : unit.DecidesFirst rangeLists address index entry)
    (fails : unit.ListFails rangeLists entry error) :
    unit.subprogramAt? rangeLists address = .error error := by
  rw [decides.subprogramAt?_eq, firstIndex?,
    coversAddress_eq_error_iff.mpr ⟨decides.subprogram, fails⟩]

theorem subprogramAt?_eq_none
    (passed : ∀ index entry, ¬unit.Decides rangeLists address index entry) :
    unit.subprogramAt? rangeLists address = .ok none := by
  have passes : ∀ entry ∈ unit.entries,
      unit.coversAddress rangeLists address entry = .ok false := by
    intro entry member
    obtain ⟨index, found⟩ := List.mem_iff_getElem?.mp member
    exact coversAddress_of_not_decides found (passed index entry)
  have search := firstIndex?_append passes 0 []
  rw [List.append_nil] at search
  exact search

/-! The name of the subprogram that is found. -/

section Names

variable [LinkageNames] {containing? : Nat → Except DecodeError (Option CompileUnit)}
  {name : String}

theorem functionAt_eq (containing? : Nat → Except DecodeError (Option CompileUnit))
    (unit : CompileUnit) (rangeLists : Bytes) (address : UInt64) :
    unit.functionAt containing? rangeLists address = (do
      match ← unit.subprogramAt? rangeLists address with
      | none => .ok none
      | some index => unit.functionName containing? index) :=
  rfl

theorem functionName_of_name (found : unit.entries[index]? = some entry)
    (named : entry.value? .name = some (.text name)) :
    unit.functionName containing? index = .ok (some name) := by
  unfold functionName
  rw [found]
  dsimp only
  rw [name?_eq_some_iff.mpr named]
  rfl

/-- An entry without a name of its own goes by that of its declaration; the linkage name counts only
where the search for the declaration has come to an end without one. -/
theorem functionName_of_unnamed (found : unit.entries[index]? = some entry)
    (unnamed : ∀ name, entry.value? .name ≠ some (.text name)) :
    unit.functionName containing? index =
      (fun declared => declared <|> linkageName? entry) <$>
        unit.qualifiedName containing? index := by
  unfold functionName
  rw [found]
  dsimp only
  rw [name?_eq_none_iff.mpr unnamed]
  cases unit.qualifiedName containing? index with
  | error error => rfl
  | ok declared => cases declared <;> rfl

theorem linkageName?_of_writes {text : String} (writes : WritesLinkageName entry text) :
    linkageName? entry = some (LinkageNames.readable text) := by
  unfold linkageName?
  rw [writesLinkageName_iff.mp writes]
  rfl

theorem linkageName?_eq_none (writesNone : ∀ text, ¬WritesLinkageName entry text) :
    linkageName? entry = none := by
  unfold linkageName?
  rw [Option.map_eq_none_iff, Option.eq_none_iff_forall_ne_some]
  exact fun text stands => writesNone text (writesLinkageName_iff.mpr stands)

/-- The first subprogram that covers an address, or whose range list does not decode, answers for
the address, whatever stands behind it and however other units are looked up. A list that does not
decode is reported. A subprogram that covers the address gives its own name, or else that of its
declaration, or else its linkage name, if it writes one, made readable; a failing search for the
declaration is reported as well. Where there is no such subprogram, there is no name. Range lists
count from the one base address of the unit, and contiguous code whose size leads past the last
address is empty. In a session the same is answered after any operations, with the units of the
image as the others. -/
theorem first_deciding_answers (containing? : Nat → Except DecodeError (Option CompileUnit))
    (unit : CompileUnit) (rangeLists : Bytes) (address : UInt64) :
    (∀ index entry, unit.DecidesFirst rangeLists address index entry →
      (∀ error, unit.ListFails rangeLists entry error →
        unit.functionAt containing? rangeLists address = .error error) ∧
      (unit.Covers rangeLists entry address →
        (∀ name, entry.value? .name = some (.text name) →
          unit.functionAt containing? rangeLists address = .ok (some name)) ∧
        ((∀ name, entry.value? .name ≠ some (.text name)) →
          (∀ error, unit.qualifiedName containing? index = .error error →
            unit.functionAt containing? rangeLists address = .error error) ∧
          (∀ name, unit.qualifiedName containing? index = .ok (some name) →
            unit.functionAt containing? rangeLists address = .ok (some name)) ∧
          (unit.qualifiedName containing? index = .ok none →
            (∀ text, WritesLinkageName entry text →
              unit.functionAt containing? rangeLists address =
                  .ok (some (LinkageNames.readable text)) ∧
                (LinkageName.IsPlain text →
                  unit.functionAt containing? rangeLists address = .ok (some text))) ∧
            ((∀ text, ¬WritesLinkageName entry text) →
              unit.functionAt containing? rangeLists address = .ok none))))) ∧
    ((∀ index entry, ¬unit.Decides rangeLists address index entry) →
      unit.functionAt containing? rangeLists address = .ok none) ∧
    (∀ base, unit.BasedAt base ↔ unit.baseAddress = base) ∧
    (∀ (entry : Entry) (low size : UInt64) (high : Attribute), entry.value? .ranges = none →
      entry.value? .lowAddress = some (.address low) → entry.attribute? .highAddress = some high →
      high.form.formClass = .constant → high.value.number? = some size →
      2 ^ 64 ≤ low.toNat + size.toNat → ¬unit.Covers rangeLists entry address) ∧
    ∀ (image : DebugImage) (operations : List Operation),
      ((image.functionAt unit address).run.run (image.sessionCache operations)).1 =
        unit.functionAt image.decodeContaining image.sections.rangeLists address := by
  refine ⟨?_, ?_, fun _ => basedAt_iff, ?_, ?_⟩
  · intro index entry decides
    constructor
    · intro error fails
      rw [functionAt_eq, decides.subprogramAt?_of_fails fails]
      rfl
    · intro covers
      have found : unit.functionAt containing? rangeLists address =
          unit.functionName containing? index := by
        rw [functionAt_eq, decides.subprogramAt?_of_covers covers]
        rfl
      rw [found]
      refine ⟨fun name named => functionName_of_name decides.found named, fun unnamed => ?_⟩
      rw [functionName_of_unnamed decides.found unnamed]
      refine ⟨?_, ?_, ?_⟩
      · intro error failed
        rw [failed]
        rfl
      · intro name declared
        rw [declared]
        rfl
      · intro undeclared
        have own : (fun declared => declared <|> linkageName? entry) <$>
            unit.qualifiedName containing? index = .ok (linkageName? entry) := by
          rw [undeclared]
          rfl
        rw [own]
        constructor
        · intro text writes
          rw [linkageName?_of_writes writes]
          refine ⟨rfl, fun plain => ?_⟩
          rw [LinkageNames.readable_plain plain]
        · intro writesNone
          rw [linkageName?_eq_none writesNone]
  · intro passed
    rw [functionAt_eq, subprogramAt?_eq_none passed]
    rfl
  · intro entry low size high without begins ends isConstant means reaches covers
    have stops : StopsAt entry low ((low.toNat + size.toNat) % 2 ^ 64) :=
      .size ends isConstant means
    have within := (covers_contiguous_iff without begins stops).mp covers
    have bound := low.toNat_lt
    have bound' := size.toNat_lt
    omega
  · intro image operations
    exact (image.functionAt_answers unit address).answer _ (image.sessionCache_sound operations)

end Names

/-- A root with a low address, and three functions. The code of the first is listed; the others have
linkage names only, and the last one has two of them. -/
def contestedUnit : CompileUnit where
  header := {
    offset := 0, unitLength := 7, version := .four, abbreviationOffset := 0, addressWidth := .two }
  data := []
  abbreviations := .empty
  toEntryTable := .ofEntries [
    { offset := 0, code := 1, tag := ⟨0x11⟩, hasChildren := true, parent := none
      attributes := [{ name := .lowAddress, form := .address, value := .address 0x1000 }] },
    { offset := 3, code := 2, tag := .subprogram, hasChildren := false, parent := some 0
      attributes := [
        { name := .ranges, form := .sectionOffset, value := .sectionOffset 0 },
        { name := .name, form := .inlineString, value := .text "listed" }] },
    { offset := 8, code := 3, tag := .subprogram, hasChildren := false, parent := some 0
      attributes := [
        { name := .lowAddress, form := .address, value := .address 0x1010 },
        { name := .highAddress, form := .unsignedData, value := .unsigned 0x10 },
        { name := .vendorLinkageName, form := .inlineString, value := .text "_ZN1a1bE" }] },
    { offset := 13, code := 4, tag := .subprogram, hasChildren := false, parent := some 0
      attributes := [
        { name := .lowAddress, form := .address, value := .address 0x1020 },
        { name := .highAddress, form := .unsignedData, value := .unsigned 0x10 },
        { name := .vendorLinkageName, form := .inlineString, value := .text "_ZN1a1bE" },
        { name := .linkageName, form := .inlineString, value := .text "start" }] }]
  lineTable := none

/-- Two bounds that are relative to the low address of the root, and the pair that ends the list. -/
def contestedList : Bytes := [0x10, 0, 0x15, 0, 0, 0, 0, 0]

def noOtherUnits (_ : Nat) : Except DecodeError (Option CompileUnit) := .ok none

section Samples

/-- One mangled name is made readable; every other name is shown as it is. -/
local instance sampleNames : LinkageNames where
  readable name := if name = "_ZN1a1bE" then "a::b" else name
  readable_plain plain := by
    apply if_neg
    rintro rfl
    exact plain.unmarked "_ZN" (by decide) (by decide)

theorem first_deciding_answers_contested :
    contestedUnit.functionAt noOtherUnits [0x10, 0, 0x15] 0x1025 =
        .error { source := .rangeLists, offset := 2, fault := .unexpectedEnd } ∧
      contestedUnit.functionAt noOtherUnits contestedList 0x1014 = .ok (some "listed") ∧
      contestedUnit.functionAt noOtherUnits contestedList 0x1015 = .ok (some "a::b") ∧
      contestedUnit.functionAt noOtherUnits contestedList 0x1025 = .ok (some "start") ∧
      contestedUnit.functionAt noOtherUnits contestedList 0x1030 = .ok none := by
  have based : contestedUnit.BasedAt 0x1000 := .root rfl (by decide) rfl
  have gives (rangeLists : Bytes) : contestedUnit.ListGives rangeLists contestedUnit.entries[1]
      (RangeList.decode rangeLists 0 2 0x1000) :=
    @ListGives.decoded _ _ _ (.sectionOffset 0) 0 _ rfl rfl based
  have answers (rangeLists : Bytes) (address : UInt64) :=
    first_deciding_answers noOtherUnits contestedUnit rangeLists address
  refine ⟨?truncated, ?listed, ?vendor, ?standard, ?nowhere⟩
  case truncated =>
    have decodes : RangeList.decode [0x10, 0, 0x15] 0 2 0x1000 =
        .error { source := .rangeLists, offset := 2, fault := .unexpectedEnd } := by
      decide +kernel
    have fails : contestedUnit.ListFails [0x10, 0, 0x15] contestedUnit.entries[1] _ :=
      decodes ▸ gives [0x10, 0, 0x15]
    have decides : contestedUnit.Decides [0x10, 0, 0x15] 0x1025 1 contestedUnit.entries[1] :=
      ⟨rfl, rfl, .inr ⟨_, fails⟩⟩
    exact ((answers _ _).1 1 _ (decides.decidesFirst (by decide +kernel))).1 _ fails
  case listed =>
    have decodes : RangeList.decode contestedList 0 2 0x1000 =
        .ok [{ start := 0x1010, stop := 0x1015 }] := by
      decide +kernel
    have covers : contestedUnit.Covers contestedList contestedUnit.entries[1] 0x1014 :=
      .listed (decodes ▸ gives contestedList) List.mem_cons_self (by decide) (by decide)
    have decides : contestedUnit.Decides contestedList 0x1014 1 contestedUnit.entries[1] :=
      ⟨rfl, rfl, .inl covers⟩
    exact (((answers _ _).1 1 _ (decides.decidesFirst (by decide +kernel))).2 covers).1 _ rfl
  case vendor =>
    have covers : contestedUnit.Covers contestedList contestedUnit.entries[2] 0x1015 :=
      .contiguous rfl rfl (.size rfl rfl rfl) (by decide) (by decide)
    have decides : contestedUnit.Decides contestedList 0x1015 2 contestedUnit.entries[2] :=
      ⟨rfl, rfl, .inl covers⟩
    have answered := (answers _ _).1 2 _ (decides.decidesFirst (by decide +kernel))
    have unnamed := (answered.2 covers).2 fun _ => nofun
    exact ((unnamed.2.2 rfl).1 _ (.vendor rfl rfl)).1
  case standard =>
    have covers : contestedUnit.Covers contestedList contestedUnit.entries[3] 0x1025 :=
      .contiguous rfl rfl (.size rfl rfl rfl) (by decide) (by decide)
    have decides : contestedUnit.Decides contestedList 0x1025 3 contestedUnit.entries[3] :=
      ⟨rfl, rfl, .inl covers⟩
    have answered := (answers _ _).1 3 _ (decides.decidesFirst (by decide +kernel))
    have unnamed := (answered.2 covers).2 fun _ => nofun
    exact ((unnamed.2.2 rfl).1 _ (.standard rfl)).2 ⟨by decide, by decide⟩
  case nowhere =>
    apply (answers _ _).2.1
    intro index entry decides
    have inside : index < 4 := (List.getElem?_eq_some_iff.mp decides.found).1
    have passed : ∀ index < 4, ∀ other ∈ contestedUnit.entries[index]?,
        contestedUnit.coversAddress contestedList 0x1030 other = .ok false := by
      decide +kernel
    exact not_decides_of_passed (passed index inside) decides

end Samples

end Symbolication.CompileUnit
