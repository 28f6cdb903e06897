import Symbolication.Proofs.CompileUnit.Header
import Symbolication.Proofs.DecodeError.Readings
import Symbolication.Proofs.UnitCache.Answer

/-!
Errors can be found in a dump of the section that they name. An offset lies in the section, its end
included, unless the fault is just that it does not; faults of one kind of contents name the section
of that kind; and where a number is said to overflow, a number in base 128 stands that does. This
holds of every failure of a session. Once the header of a unit is read, what is wrong with its
entries is found in the unit itself.
-/

namespace Symbolication

/-- The bytes of a section. -/
def DebugSections.bytes (sections : DebugSections) : DebugSection → Bytes
  | .info => sections.info
  | .abbreviations => sections.abbreviations
  | .addressRanges => sections.addressRanges
  | .lines => sections.lines
  | .strings => sections.strings
  | .rangeLists => sections.rangeLists

/-- The section of a fault that only one section can have. -/
def DecodeFault.onlySection? : DecodeFault → Option DebugSection
  | unknownAbbreviation _ | unsupportedForm _ => some .info
  | duplicateAbbreviation _ => some .abbreviations
  | invalidLineProgram _ => some .lines
  | _ => none

namespace DecodeError

/-- The error tells where to look. -/
structure LocatedIn (sections : DebugSections) (error : DecodeError) : Prop where
  named : ∀ source, error.fault.onlySection? = some source → error.source = source
  outside : error.fault = .offsetOutOfBounds →
    (sections.bytes error.source).length < error.offset
  inside : error.fault ≠ .offsetOutOfBounds →
    error.offset ≤ (sections.bytes error.source).length
  overflows : error.fault = .integerOverflow →
    Leb128.Overflows ((sections.bytes error.source).drop error.offset)

variable {sections : DebugSections}

theorem LocatedIn.of_explains {span : Span} (shows : span.bytes = sections.bytes span.source)
    {error : DecodeError} (explains : span.Explains error) : error.LocatedIn sections where
  named := by
    intro source only
    obtain admits | ⟨overflow, _⟩ := explains.fault
    · rw [explains.source]
      cases named : error.fault <;> rw [named] at only admits <;> cases only <;> exact admits
    · rw [overflow] at only
      cases only
  outside := by
    intro outside
    obtain admits | ⟨overflow, _⟩ := explains.fault
    · rw [outside] at admits
      cases admits
    · rw [overflow] at outside
      cases outside
  inside := by
    intro _
    rw [explains.source, ← shows]
    exact Nat.le_trans explains.le_high span.high_le
  overflows := by
    intro overflow
    obtain admits | ⟨_, overflows⟩ := explains.fault
    · rw [overflow] at admits
      cases admits
    · rwa [explains.source, ← shows]

theorem LocatedIn.of_outside {source : DebugSection} {offset : Nat}
    (outside : (sections.bytes source).length < offset) :
    LocatedIn sections { source, offset, fault := .offsetOutOfBounds } where
  named _ only := by cases only
  outside _ := outside
  inside within := absurd rfl within
  overflows overflow := by cases overflow

/-- An error that tells where to look in this section. -/
def FoundIn (sections : DebugSections) (source : DebugSection) (error : DecodeError) : Prop :=
  error.source = source ∧ error.LocatedIn sections

end DecodeError

theorem bind_eq_ok {ε α β : Type} {result : Except ε α} {continuation : α → Except ε β}
    {value : β} :
    result >>= continuation = .ok value ↔
      ∃ middle, result = .ok middle ∧ continuation middle = .ok value := by
  cases result with
  | error error => simp [Bind.bind, Except.bind]
  | ok middle => simp [Bind.bind, Except.bind]

theorem bind_eq_error {ε α β : Type} {result : Except ε α} {continuation : α → Except ε β}
    {error : ε} :
    result >>= continuation = .error error ↔
      result = .error error ∨
        ∃ middle, result = .ok middle ∧ continuation middle = .error error := by
  cases result with
  | error error => simp [Bind.bind, Except.bind]
  | ok middle => simp [Bind.bind, Except.bind]

/-- If the result is an error, then one of this kind. -/
def FailsWith {ε α : Type} (kind : ε → Prop) (result : Except ε α) : Prop :=
  ∀ error, result = .error error → kind error

namespace FailsWith

variable {ε α β : Type} {kind kind' : ε → Prop} {result : Except ε α}

theorem ok (value : α) : FailsWith kind (.ok value) := by
  intro error outcome
  cases outcome

theorem error {error : ε} (holds : kind error) : FailsWith kind (.error error : Except ε α) := by
  intro error' outcome
  cases outcome
  exact holds

theorem mono (fails : FailsWith kind result) (weaker : ∀ error, kind error → kind' error) :
    FailsWith kind' result :=
  fun error outcome => weaker error (fails error outcome)

protected theorem bind {continuation : α → Except ε β} (fails : FailsWith kind result)
    (failsNext : ∀ value, result = .ok value → FailsWith kind (continuation value)) :
    FailsWith kind (result >>= continuation) := by
  cases result with
  | error error' => exact .error (fails error' rfl)
  | ok value => exact failsNext value rfl

protected theorem map (fails : FailsWith kind result) (function : α → β) :
    FailsWith kind (function <$> result) := by
  cases result with
  | error error' => exact .error (fails error' rfl)
  | ok value => exact .ok _

end FailsWith

open DecodeError (LocatedIn FoundIn)

variable {sections : DebugSections}

/-- A reading that is confined wherever it starts in a section can only find the section at
fault. -/
theorem Decoder.runAt_fails {α : Type} {decoder : Decoder α} {source : DebugSection}
    (guards : ∀ span : Span, span.source = source → span.Guards (fun _ => False) decoder)
    (offset : Nat) :
    FailsWith (FoundIn sections source)
      (decoder.runAt source (sections.bytes source) offset) := by
  intro error outcome
  obtain ⟨outside, rfl⟩ | explains | impossible :=
    Span.runAt_failure (List.prefix_refl _) (guards _ rfl) outcome
  · exact ⟨rfl, .of_outside outside⟩
  · exact ⟨explains.source, .of_explains rfl explains⟩
  · exact impossible.elim

theorem text_fails (offset : Nat) :
    FailsWith (FoundIn sections .strings)
      (Decoder.text.runAt .strings sections.strings offset) :=
  Decoder.runAt_fails (fun _ _ => .text) offset

theorem AbbreviationTable.decode_fails (offset : Nat) :
    FailsWith (FoundIn sections .abbreviations) (decode sections.abbreviations offset) :=
  Decoder.runAt_fails (fun _ source => decoder_guards source) offset

theorem AddressIndex.decode_fails :
    FailsWith (FoundIn sections .addressRanges) (decode sections.addressRanges) :=
  (Decoder.runAt_fails (fun _ _ => decoder_guards) 0).bind fun _ _ => .ok _

theorem UnitHeader.decode_fails (offset : Nat) :
    FailsWith (FoundIn sections .info) (decode sections.info offset) :=
  Decoder.runAt_fails (fun _ _ => decoder_guards) offset

theorem UnitHeader.containing?_fails (offset : Nat) :
    FailsWith (FoundIn sections .info) (containing? sections.info offset) := by
  unfold containing?
  generalize 0 = start
  fun_induction find? sections.info offset start with
  | case1 start inside error outcome => exact .error (decode_fails start error outcome)
  | case2 start inside header outcome contains => exact .ok _
  | case3 start inside header outcome contains induction => exact induction
  | case4 start outside => exact .ok _

/-- The address size of a unit has been checked, so only the pairs can be at fault. -/
theorem RangeList.decode_fails (offset : Nat) (width : Width) (base : UInt64) :
    FailsWith (FoundIn sections .rangeLists)
      (decode sections.rangeLists offset width.toUInt8 base) := by
  unfold decode
  rw [Width.ofUInt8?_toUInt8]
  exact (Decoder.runAt_fails (fun _ _ => pairs_guards width) offset).bind fun _ _ => .ok _

theorem LineTable.decode_fails (offset : Nat) (addressSize : UInt8) :
    FailsWith (FoundIn sections .lines) (decode sections.lines offset addressSize) := by
  have whole : sections.lines <+: sections.lines := List.prefix_refl _
  have confines : (Span.startingAt .lines sections.lines offset _ whole.length_le).Confines
      (fun _ => False) (LineHeader.Placed _) LineHeader.decoder :=
    LineHeader.decoder_confines rfl
  apply FailsWith.bind
  · exact Decoder.runAt_fails (fun _ source => (LineHeader.decoder_confines source).guards) offset
  · intro result decoded error outcome
    have placed := Span.runAt_success whole confines decoded
    have blamed := @ofProgram_failure _ (fun _ => False) _ _ _ _ rfl placed outcome
    have explains := blamed.resolve_right not_false
    exact ⟨explains.source, .of_explains rfl explains⟩

namespace CompileUnit

/-- An error that tells where to look, and if it is about entries, then in the unit behind its
header. -/
def Owns (sections : DebugSections) (header : UnitHeader) (error : DecodeError) : Prop :=
  error.LocatedIn sections ∧
    (error.source = .info → header.firstEntry ≤ error.offset ∧ error.offset ≤ header.stop)

theorem owns_of_foundIn {header : UnitHeader} {source : DebugSection} (other : source ≠ .info)
    {error : DecodeError} (found : FoundIn sections source error) : Owns sections header error :=
  ⟨found.2, fun inEntries => absurd (found.1.symm.trans inEntries) other⟩

theorem entries_fail {header : UnitHeader} (inside : header.firstEntry ≤ header.stop)
    (ends : header.stop ≤ sections.info.length) (abbreviations : AbbreviationTable) :
    FailsWith (Owns sections header)
      ((EntryTable.decoder abbreviations
        { version := header.version, addressWidth := header.addressWidth
          strings := sections.strings }).runAt .info (sections.info.take header.stop)
            header.firstEntry) := by
  intro error outcome
  have front : sections.info.take header.stop <+: sections.info := List.take_prefix _ _
  have length : (sections.info.take header.stop).length = header.stop :=
    List.length_take_of_le ends
  obtain ⟨outside, _⟩ | explains | found := Span.runAt_failure front
    (EntryTable.decoder_guards rfl (fun offset error failed => text_fails offset error failed)
      abbreviations) outcome
  · omega
  · refine ⟨.of_explains rfl explains, fun _ => ⟨explains.low_le, ?_⟩⟩
    rw [← length]
    exact explains.le_high
  · exact owns_of_foundIn (by decide) found

theorem lineTable?_fails (header : UnitHeader) (entries : List Entry) :
    FailsWith (FoundIn sections .lines) (lineTable? sections header entries) := by
  rw [lineTable?_eq]
  split
  · exact .ok _
  · exact (LineTable.decode_fails _ _).map some

theorem ofHeader_fails {header : UnitHeader} (inside : header.firstEntry ≤ header.stop)
    (ends : header.stop ≤ sections.info.length) :
    FailsWith (Owns sections header) (ofHeader sections header) := by
  apply ((AbbreviationTable.decode_fails _).mono fun _ => owns_of_foundIn (by decide)).bind
  intro abbreviations _
  apply (entries_fail inside ends abbreviations).bind
  intro table _
  apply ((lineTable?_fails header table.entries).mono fun _ => owns_of_foundIn (by decide)).bind
  exact fun _ _ => .ok _

theorem decode_fails (offset : Nat) :
    FailsWith (LocatedIn sections) (decode sections offset) := by
  apply ((UnitHeader.decode_fails offset).mono fun _ found => found.2).bind
  intro header decoded
  obtain ⟨inside, ends⟩ := UnitHeader.bounds_of_decode decoded
  rw [← UnitHeader.offset_of_decode decoded] at inside
  exact (ofHeader_fails inside ends).mono fun _ owns => owns.1

theorem subprogramAt?_fails (unit : CompileUnit) (address : UInt64) :
    FailsWith (LocatedIn sections) (unit.subprogramAt? sections.rangeLists address) := by
  have covers (entry : Entry) :
      FailsWith (LocatedIn sections) (unit.coversAddress sections.rangeLists address entry) := by
    unfold coversAddress code
    split
    · apply FailsWith.map
      split
      · exact .ok _
      · split
        · exact .ok _
        · rw [DebugSection.count_eq]
          exact (RangeList.decode_fails _ _ _).mono fun _ found => found.2
    · exact .ok _
  unfold subprogramAt?
  generalize 0 = index
  induction unit.entries generalizing index with
  | nil => exact .ok _
  | cons entry rest induction =>
      unfold firstIndex?
      split
      · rename_i error failed
        exact .error (covers entry error failed)
      · exact .ok _
      · exact induction _

end CompileUnit

/-- Relates every result to itself that fails with an error that tells where to look. -/
def DecodeError.located (sections : DebugSections) :
    MonadRelation (Except DecodeError) (Except DecodeError) :=
  .ofProperty (FailsWith (LocatedIn sections)) .ok fun fails failsNext =>
    fails.bind fun value _ => failsNext value

namespace DebugImage

variable (image : DebugImage)

theorem decodeContaining_fails (offset : Nat) :
    FailsWith (LocatedIn image.sections) (image.decodeContaining offset) :=
  (containingWith_related (DecodeError.located image.sections)
    (fun place => ⟨rfl, CompileUnit.decode_fails place⟩) offset
    ⟨rfl, (UnitHeader.containing?_fails offset).mono fun _ found => found.2⟩).2

variable [LinkageNames]

theorem functionAtWith_fails (unit : CompileUnit) (address : UInt64) :
    FailsWith (LocatedIn image.sections) (image.functionAtWith image.decodeUnit unit address) :=
  (CompileUnit.functionAt_related (DecodeError.located image.sections)
    (fun place => ⟨rfl, image.decodeContaining_fails place⟩) unit _ address
    ⟨rfl, unit.subprogramAt?_fails address⟩).2

theorem resolveWith_fails (address : UInt64) :
    FailsWith (LocatedIn image.sections) (image.resolveWith image.decodeUnit address) :=
  (resolveWith_related (DecodeError.located image.sections)
    (fun place => ⟨rfl, CompileUnit.decode_fails place⟩) address
    fun unit => ⟨rfl, image.functionAtWith_fails unit address⟩).2

end DebugImage

/-- What makes a request fail is the text of an address, or an error that tells where to look. -/
def ResolveError.LocatedIn (sections : DebugSections) : ResolveError → Prop
  | invalidAddress _ => True
  | decode error => error.LocatedIn sections

theorem ResolveError.decode_fails {α : Type} {result : Except DecodeError α}
    (fails : FailsWith (DecodeError.LocatedIn sections) result) :
    FailsWith (LocatedIn sections) (result.mapError decode) := by
  cases result with
  | error error' => exact .error (fails error' rfl)
  | ok value => exact .ok _

theorem Operation.decoded_fails [LinkageNames] (image : DebugImage) (operation : Operation) :
    FailsWith (ResolveError.LocatedIn image.sections) (operation.decoded image) := by
  have taken (offset : Nat) : FailsWith (ResolveError.LocatedIn image.sections)
      ((image.decodeUnit offset).mapError .decode) :=
    ResolveError.decode_fails (CompileUnit.decode_fails offset)
  have located (address : UInt64) := ResolveError.decode_fails (image.resolveWith_fails address)
  have related (place : Nat) : (DecodeError.located image.sections).Related
      (image.decodeContaining place) (image.decodeContaining place) :=
    ⟨rfl, image.decodeContaining_fails place⟩
  cases operation with
  | resolve address => exact (located address).map _
  | resolveText text =>
      unfold decoded
      dsimp only
      cases Address.parse? text with
      | none => exact .error trivial
      | some address => exact (located address).map _
  | unit offset => exact (taken offset).map _
  | unitContaining offset =>
      exact (ResolveError.decode_fails (image.decodeContaining_fails offset)).map _
  | functionAt unitOffset address =>
      exact (taken unitOffset).bind fun unit _ =>
        (ResolveError.decode_fails (image.functionAtWith_fails unit address)).map _
  | functionName unitOffset index =>
      exact (taken unitOffset).bind fun unit _ =>
        (ResolveError.decode_fails
          (CompileUnit.functionName_related _ related unit index).2).map _
  | qualifiedName unitOffset index =>
      exact (taken unitOffset).bind fun unit _ =>
        (ResolveError.decode_fails
          (CompileUnit.nameWithinHops_related _ related _ unit index).2).map _

/-- Every error tells where to look: one that opening an image gives, and one that any operation of
any session gives. Once the header of a unit has been read, an error about its entries lies behind
the header and not behind the end of the unit. -/
theorem DebugImage.errors_are_located [LinkageNames] (sections : DebugSections) :
    (∀ error, ofSections sections = .error error → error.LocatedIn sections) ∧
      (∀ image, ofSections sections = .ok image → ∀ (operations : List Operation) (error),
        .error (.decode error) ∈ image.sessionAnswers operations →
          error.LocatedIn sections) ∧
      (∀ offset header, UnitHeader.decode sections.info offset = .ok header →
        ∀ error, CompileUnit.ofHeader sections header = .error error →
          error.LocatedIn sections ∧
            (error.source = .info →
              offset + UnitHeader.size ≤ error.offset ∧ error.offset ≤ header.stop)) := by
  refine ⟨?_, ?_, ?_⟩
  · exact (AddressIndex.decode_fails.mono fun _ found => found.2).bind fun _ _ => .ok _
  · intro image opened operations error answered
    obtain ⟨index, _, same⟩ := bind_eq_ok.mp opened
    cases same
    rw [sessionAnswers_eq_decoded] at answered
    obtain ⟨operation, _, failed⟩ := List.mem_map.mp answered
    exact operation.decoded_fails _ _ failed
  · intro offset header decoded error failed
    obtain ⟨inside, ends⟩ := UnitHeader.bounds_of_decode decoded
    have place := UnitHeader.offset_of_decode decoded
    rw [← place] at inside ⊢
    exact CompileUnit.ofHeader_fails inside ends error failed

namespace DebugImage

/-- Two units without abbreviations. The first has an entry with a code that is not declared, the
second a code of too many groups. -/
def damagedSections : DebugSections where
  info := [8, 0, 0, 0, 4, 0, 0, 0, 0, 0, 8, 5] ++
    ([26, 0, 0, 0, 4, 0, 0, 0, 0, 0, 8] ++ List.replicate 19 255)
  abbreviations := []
  addressRanges := []
  lines := []
  strings := []
  rangeLists := []

def damagedImage : DebugImage where
  sections := damagedSections
  index := { sets := [] }

def damagedHeader : UnitHeader where
  offset := 0
  unitLength := 8
  version := .four
  abbreviationOffset := 0
  addressWidth := .eight

section Samples

open scoped LinkageNames

theorem errors_are_located_damaged :
    .error (.decode { source := .info, offset := 23, fault := .integerOverflow }) ∈
        damagedImage.sessionAnswers [.unit 99, .unit 12] ∧
      DecodeError.LocatedIn damagedSections
        { source := .info, offset := 23, fault := .integerOverflow } ∧
      ∃ error, CompileUnit.ofHeader damagedSections damagedHeader = .error error ∧
        error.fault = .unknownAbbreviation 5 ∧ 11 ≤ error.offset ∧ error.offset ≤ 12 := by
  obtain ⟨_, answers, units⟩ := errors_are_located damagedSections
  have opened : ofSections damagedSections = .ok damagedImage := by decide +kernel
  have answered : .error (.decode { source := .info, offset := 23, fault := .integerOverflow }) ∈
      damagedImage.sessionAnswers [.unit 99, .unit 12] := by
    decide +kernel
  have decoded : UnitHeader.decode damagedSections.info 0 = .ok damagedHeader := by decide +kernel
  have failed : CompileUnit.ofHeader damagedSections damagedHeader =
      .error { source := .info, offset := 11, fault := .unknownAbbreviation 5 } := by
    decide +kernel
  exact ⟨answered, answers damagedImage opened _ _ answered, _, failed, rfl,
    (units 0 damagedHeader decoded _ failed).2 rfl⟩

end Samples

end DebugImage

end Symbolication
