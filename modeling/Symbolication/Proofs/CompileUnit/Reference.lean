import Symbolication.Proofs.CompileUnit.Decoding
import Symbolication.Proofs.CompileUnit.Placement
import Symbolication.Proofs.UnitCache.Answer

/-!
References between entries. An entry has an offset from the first one of its unit, another from the
unit's header, and a third from the beginning of the section; a reference is one of the latter two.
Where all units can be decoded, a reference leads to an entry if and only if the entry begins there,
from whichever unit it is followed and whatever was decoded before.
-/

namespace Symbolication

namespace CompileUnit

/-- Where the entry at an index ends: where the next one begins, or where the unit ends. -/
def entryStop (unit : CompileUnit) (index : Nat) : Nat :=
  (unit.entries[index + 1]?).elim unit.header.stop unit.sectionOffset

/-- The offset of the section lies in an entry, behind its first byte. -/
def InsideEntry (unit : CompileUnit) (offset : Nat) : Prop :=
  ∃ index entry, unit.entries[index]? = some entry ∧ unit.sectionOffset entry < offset ∧
    offset < unit.entryStop index

end CompileUnit

namespace DebugImage

variable {image : DebugImage} {unit other : CompileUnit} {offset index : Nat}
  {error : DecodeError}

/-- A unit of the chain, as it decodes. -/
structure HasUnit (image : DebugImage) (unit : CompileUnit) : Prop where
  reached : UnitHeader.Reached image.sections.info unit.header.offset
  decodes : image.decodeUnit unit.header.offset = .ok unit

/-- The chain of units leads to the end of the section, and every unit on it decodes. -/
def Intact (image : DebugImage) : Prop :=
  ∀ offset, UnitHeader.Reached image.sections.info offset →
    offset < image.sections.info.length → ∃ unit, image.decodeUnit offset = .ok unit

theorem Intact.chained (intact : image.Intact) : UnitHeader.Chained image.sections.info := by
  intro offset reached inside
  obtain ⟨unit, decoded⟩ := intact offset reached inside
  exact ⟨unit.header, (CompileUnit.decodedAt_of_decode decoded).header⟩

namespace HasUnit

theorem decodedAt (isUnit : image.HasUnit unit) :
    CompileUnit.DecodedAt image.sections unit.header.offset unit :=
  CompileUnit.decodedAt_of_decode isUnit.decodes

theorem header_decodes (isUnit : image.HasUnit unit) :
    UnitHeader.decode image.sections.info unit.header.offset = .ok unit.header :=
  isUnit.decodedAt.header

theorem unique (isUnit : image.HasUnit unit) (isOther : image.HasUnit other)
    (contains : unit.header.contains offset) (containsOther : other.header.contains offset) :
    unit = other := by
  have same := isUnit.reached.unique isOther.reached isUnit.header_decodes isOther.header_decodes
    contains containsOther
  have decodes := isUnit.decodes
  rw [same, isOther.decodes] at decodes
  cases decodes
  rfl

theorem contains_of_starts (isUnit : image.HasUnit unit) (starts : unit.Starts index offset) :
    unit.header.contains offset :=
  isUnit.decodedAt.contains_of_starts starts

theorem indexAtSectionOffset?_eq_some (isUnit : image.HasUnit unit) :
    unit.indexAtSectionOffset? offset = some index ↔ unit.Starts index offset :=
  isUnit.decodedAt.indexAtSectionOffset?_eq_some

theorem entryStop_le (isUnit : image.HasUnit unit) (index : Nat) :
    unit.entryStop index ≤ unit.header.stop := by
  unfold CompileUnit.entryStop
  cases found : unit.entries[index + 1]? with
  | none => exact Nat.le_refl _
  | some next => exact Nat.le_of_lt (isUnit.decodedAt.sectionOffset_lt found).2

theorem contains_of_insideEntry (isUnit : image.HasUnit unit) (inside : unit.InsideEntry offset) :
    unit.header.contains offset := by
  obtain ⟨index, entry, found, behind, before⟩ := inside
  have starts := (isUnit.decodedAt.sectionOffset_lt found).1
  have ends := isUnit.entryStop_le index
  unfold UnitHeader.firstEntry at starts
  rw [UnitHeader.contains_iff]
  omega

/-- No entry begins inside another one. -/
theorem not_starts_of_insideEntry (isUnit : image.HasUnit unit)
    (inside : unit.InsideEntry offset) (position : Nat) : ¬unit.Starts position offset := by
  rintro ⟨entry', found', rfl⟩
  obtain ⟨index, entry, found, behind, before⟩ := inside
  obtain ⟨bound, rfl⟩ := List.getElem?_eq_some_iff.mp found
  obtain ⟨bound', rfl⟩ := List.getElem?_eq_some_iff.mp found'
  have increasing := List.pairwise_iff_getElem.mp isUnit.decodedAt.increasing
  -- It would begin behind the first byte of one entry, and so with the next one or later.
  have notBefore : index + 1 ≤ position := by
    unfold CompileUnit.sectionOffset at behind
    rcases Nat.lt_trichotomy index position with less | rfl | greater
    · exact less
    · omega
    · have order := increasing position index bound' bound greater
      omega
  unfold CompileUnit.entryStop CompileUnit.sectionOffset at before
  rw [List.getElem?_eq_getElem (by omega), Option.elim_some] at before
  rcases Nat.lt_or_eq_of_le notBefore with less | same
  · have order := increasing (index + 1) position (by omega) bound' less
    omega
  · subst same
    omega

end HasUnit

/-- Every place in a unit lies in its header, at the beginning of an entry or inside an entry. -/
theorem HasUnit.place_cases (isUnit : image.HasUnit unit) (contains : unit.header.contains offset) :
    offset < unit.header.firstEntry ∨ (∃ index, unit.Starts index offset) ∨
      unit.InsideEntry offset := by
  obtain ⟨_, before⟩ := UnitHeader.contains_iff.mp contains
  rcases Nat.lt_or_ge offset unit.header.firstEntry with inHeader | behind
  · exact .inl inHeader
  · obtain ⟨index, body, found, starts, ends⟩ := isUnit.decodedAt.tiles.covers
      (Nat.zero_le (offset - unit.header.firstEntry)) (by omega)
    rw [List.getElem?_map] at found ends
    obtain ⟨entry, isEntry, rfl⟩ := Option.map_eq_some_iff.mp found
    have reach : offset < unit.entryStop index := by
      unfold CompileUnit.entryStop CompileUnit.sectionOffset
      cases next : unit.entries[index + 1]? with
      | none =>
          rw [next, Option.map_none, Option.elim_none] at ends
          rw [Option.elim_none]
          omega
      | some later =>
          rw [next, Option.map_some, Option.elim_some] at ends
          rw [Option.elim_some]
          omega
    have place : unit.sectionOffset entry ≤ offset := by
      unfold CompileUnit.sectionOffset
      omega
    right
    rcases Nat.lt_or_eq_of_le place with inner | same
    · exact .inr ⟨index, entry, isEntry, inner, reach⟩
    · exact .inl ⟨index, entry, isEntry, same⟩

/-- Where the units are intact, an offset of the section lies in one of them. -/
theorem Intact.exists_contains (intact : image.Intact)
    (inside : offset < image.sections.info.length) :
    ∃ unit, image.HasUnit unit ∧ unit.header.contains offset := by
  obtain ⟨start, header, reached, decoded, contains⟩ :=
    UnitHeader.exists_contains intact.chained inside
  have lies := UnitHeader.bounds_of_decode decoded
  have positive := UnitHeader.lt_stop_of_decode decoded
  obtain ⟨unit, decodes⟩ := intact start reached (by omega)
  have same := (CompileUnit.decodedAt_of_decode decodes).header
  have place := UnitHeader.offset_of_decode same
  rw [decoded] at same
  cases same
  exact ⟨unit, ⟨place ▸ reached, place ▸ decodes⟩, contains⟩

theorem decodeContaining_eq (offset : Nat) :
    image.decodeContaining offset =
      (UnitHeader.containing? image.sections.info offset >>= fun header? =>
        header?.elim (.ok none) fun header => some <$> image.decodeUnit header.offset) := by
  unfold decodeContaining containingWith
  change (UnitHeader.containing? image.sections.info offset >>= _) = _
  cases UnitHeader.containing? image.sections.info offset with
  | error error => rfl
  | ok header? => cases header? <;> rfl

theorem HasUnit.decodeContaining_eq (isUnit : image.HasUnit unit)
    (contains : unit.header.contains offset) :
    image.decodeContaining offset = .ok (some unit) := by
  have found := UnitHeader.containing?_eq_some_iff.mpr
    ⟨isUnit.reached, isUnit.header_decodes, contains⟩
  rw [DebugImage.decodeContaining_eq, found]
  change some <$> image.decodeUnit unit.header.offset = _
  rw [isUnit.decodes]
  rfl

theorem Intact.decodeContaining_eq_none (intact : image.Intact)
    (behind : image.sections.info.length ≤ offset) :
    image.decodeContaining offset = .ok none := by
  rw [decodeContaining_eq, UnitHeader.containing?_eq_none intact.chained behind]
  rfl

/-- The search for the unit around an offset fails, at a header that is not behind the offset or in
the unit itself. -/
inductive SearchFails (image : DebugImage) (offset : Nat) (error : DecodeError) : Prop
  | header {start : Nat} : UnitHeader.Reached image.sections.info start →
      start < image.sections.info.length → start ≤ offset →
        UnitHeader.decode image.sections.info start = .error error → SearchFails image offset error
  | unit {header : UnitHeader} : UnitHeader.Reached image.sections.info header.offset →
      UnitHeader.decode image.sections.info header.offset = .ok header → header.contains offset →
        image.decodeUnit header.offset = .error error → SearchFails image offset error

theorem decodeContaining_eq_some_iff :
    image.decodeContaining offset = .ok (some unit) ↔
      image.HasUnit unit ∧ unit.header.contains offset := by
  constructor
  · intro answered
    rw [decodeContaining_eq] at answered
    obtain ⟨header?, found, answered⟩ := bind_eq_ok.mp answered
    cases header? with
    | none => cases answered
    | some header =>
        obtain ⟨reached, decoded, contains⟩ := UnitHeader.containing?_eq_some_iff.mp found
        have decodes : image.decodeUnit header.offset = .ok unit := by
          rw [Option.elim_some, ← bind_pure_comp] at answered
          obtain ⟨unit', decodes, same⟩ := bind_eq_ok.mp answered
          cases same
          exact decodes
        have same := (CompileUnit.decodedAt_of_decode decodes).header
        rw [decoded] at same
        cases same
        exact ⟨⟨reached, decodes⟩, contains⟩
  · rintro ⟨isUnit, contains⟩
    exact isUnit.decodeContaining_eq contains

theorem decodeContaining_eq_error_iff :
    image.decodeContaining offset = .error error ↔ image.SearchFails offset error := by
  rw [decodeContaining_eq, bind_eq_error, UnitHeader.containing?_eq_error_iff]
  constructor
  · rintro (⟨start, reached, inside, before, broken⟩ | ⟨header?, found, failed⟩)
    · exact .header reached inside before broken
    · cases header? with
      | none => cases failed
      | some header =>
          obtain ⟨reached, decoded, contains⟩ := UnitHeader.containing?_eq_some_iff.mp found
          rw [Option.elim_some, ← bind_pure_comp] at failed
          obtain fails | ⟨_, _, failed⟩ := bind_eq_error.mp failed
          · exact .unit reached decoded contains fails
          · cases failed
  · rintro (⟨reached, inside, before, broken⟩ | ⟨reached, decoded, contains, fails⟩)
    · exact .inl ⟨_, reached, inside, before, broken⟩
    · refine .inr ⟨_, UnitHeader.containing?_eq_some_iff.mpr ⟨reached, decoded, contains⟩, ?_⟩
      rw [Option.elim_some, fails]
      rfl

theorem resolve_inside (inside : unit.header.contains offset) :
    unit.resolveReference image.decodeContaining (.sectionReference offset) =
      .ok ((unit.indexAtSectionOffset? offset).map fun index => (unit, index)) := by
  unfold CompileUnit.resolveReference
  dsimp only
  rw [if_pos inside]
  rfl

theorem resolve_outside (outside : ¬unit.header.contains offset) :
    unit.resolveReference image.decodeContaining (.sectionReference offset) =
      (image.decodeContaining offset >>= fun other? => .ok (other?.bind fun other =>
        (other.indexAtSectionOffset? offset).map fun index => (other, index))) := by
  unfold CompileUnit.resolveReference
  dsimp only
  rw [if_neg outside]
  rfl

/-- A reference into the section is searched in the unit that it leads to, be it the referring unit
or another one. -/
theorem HasUnit.resolve_sectionReference (isUnit : image.HasUnit unit)
    (isOther : image.HasUnit other) (contains : other.header.contains offset) :
    unit.resolveReference image.decodeContaining (.sectionReference offset) =
      .ok ((other.indexAtSectionOffset? offset).map fun index => (other, index)) := by
  by_cases own : unit.header.contains offset
  · rw [resolve_inside own, isUnit.unique isOther own contains]
  · rw [resolve_outside own, isOther.decodeContaining_eq contains]
    rfl

theorem HasUnit.resolve_behind (intact : image.Intact) (isUnit : image.HasUnit unit)
    (behind : image.sections.info.length ≤ offset) :
    unit.resolveReference image.decodeContaining (.sectionReference offset) = .ok none := by
  have ends := (UnitHeader.bounds_of_decode isUnit.header_decodes).2
  have outside : ¬unit.header.contains offset := by
    rw [UnitHeader.contains_iff]
    omega
  rw [resolve_outside outside, intact.decodeContaining_eq_none behind]
  rfl

/-- No unit has an entry that begins in a header or inside an entry of this one. -/
theorem HasUnit.nowhere_in (isUnit : image.HasUnit unit)
    (between : unit.header.offset ≤ offset ∧ offset < unit.header.firstEntry ∨
      unit.InsideEntry offset) (isOther : image.HasUnit other) (index : Nat) :
    ¬other.Starts index offset := by
  intro starts
  have containsOther := isOther.contains_of_starts starts
  rcases between with inHeader | inside
  · have room := (UnitHeader.bounds_of_decode isUnit.header_decodes).1
    have contains : unit.header.contains offset := by
      rw [UnitHeader.contains_iff]
      unfold UnitHeader.firstEntry at inHeader
      omega
    cases isUnit.unique isOther contains containsOther
    obtain ⟨entry, found, place⟩ := starts
    have behind := (isUnit.decodedAt.sectionOffset_lt found).1
    omega
  · cases isUnit.unique isOther (isUnit.contains_of_insideEntry inside) containsOther
    exact isUnit.not_starts_of_insideEntry inside index starts

section Sessions

variable [LinkageNames]

/-- What a reference in a unit leads to, after the operations of a session. -/
def referenceAnswer (image : DebugImage) (operations : List Operation) (unit : CompileUnit)
    (reference : AttributeValue) : Except DecodeError (Option (CompileUnit × Nat)) :=
  ((unit.resolveReference image.unitContaining reference).run.run
    (image.sessionCache operations)).1

theorem referenceAnswer_eq (operations : List Operation) (reference : AttributeValue) :
    image.referenceAnswer operations unit reference =
      unit.resolveReference image.decodeContaining reference :=
  (image.resolveReference_answers unit reference).answer _ (image.sessionCache_sound operations)

namespace HasUnit

variable {operations : List Operation}

theorem sectionReference_eq_some (intact : image.Intact) (isUnit : image.HasUnit unit) :
    image.referenceAnswer operations unit (.sectionReference offset) = .ok (some (other, index)) ↔
      image.HasUnit other ∧ other.Starts index offset := by
  rw [referenceAnswer_eq]
  constructor
  · intro answered
    rcases Nat.lt_or_ge offset image.sections.info.length with inside | behind
    · obtain ⟨target, isTarget, contains⟩ := intact.exists_contains inside
      rw [isUnit.resolve_sectionReference isTarget contains] at answered
      obtain ⟨position, found, same⟩ := Option.map_eq_some_iff.mp (Except.ok.inj answered)
      cases same
      exact ⟨isTarget, isTarget.indexAtSectionOffset?_eq_some.mp found⟩
    · rw [isUnit.resolve_behind intact behind] at answered
      cases answered
  · rintro ⟨isOther, starts⟩
    rw [isUnit.resolve_sectionReference isOther (isOther.contains_of_starts starts),
      isOther.indexAtSectionOffset?_eq_some.mpr starts]
    rfl

theorem sectionReference_eq_none (intact : image.Intact) (isUnit : image.HasUnit unit)
    (nowhere : ∀ other, image.HasUnit other → ∀ index, ¬other.Starts index offset) :
    image.referenceAnswer operations unit (.sectionReference offset) = .ok none := by
  rw [referenceAnswer_eq]
  rcases Nat.lt_or_ge offset image.sections.info.length with inside | behind
  · obtain ⟨target, isTarget, contains⟩ := intact.exists_contains inside
    have missing : target.indexAtSectionOffset? offset = none := by
      refine Option.eq_none_iff_forall_ne_some.mpr fun index found => ?_
      exact nowhere target isTarget index (isTarget.indexAtSectionOffset?_eq_some.mp found)
    rw [isUnit.resolve_sectionReference isTarget contains, missing]
    rfl
  · exact isUnit.resolve_behind intact behind

theorem unitReference_eq_some (isUnit : image.HasUnit unit) :
    image.referenceAnswer operations unit (.unitReference offset) = .ok (some (other, index)) ↔
      other = unit ∧ unit.Starts index (unit.header.offset + offset) := by
  rw [referenceAnswer_eq, ← isUnit.decodedAt.indexAtUnitOffset?_eq_some]
  change Except.ok ((unit.indexAtUnitOffset? offset).map fun index => (unit, index)) = _ ↔ _
  simp only [Except.ok.injEq, Option.map_eq_some_iff, Prod.mk.injEq]
  constructor
  · rintro ⟨position, found, rfl, rfl⟩
    exact ⟨rfl, found⟩
  · rintro ⟨rfl, found⟩
    exact ⟨index, found, rfl, rfl⟩

theorem unitReference_eq_none (isUnit : image.HasUnit unit)
    (nowhere : ∀ index, ¬unit.Starts index (unit.header.offset + offset)) :
    image.referenceAnswer operations unit (.unitReference offset) = .ok none := by
  have missing : unit.indexAtUnitOffset? offset = none :=
    Option.eq_none_iff_forall_ne_some.mpr fun index found =>
      nowhere index (isUnit.decodedAt.indexAtUnitOffset?_eq_some.mp found)
  rw [referenceAnswer_eq]
  change Except.ok ((unit.indexAtUnitOffset? offset).map fun index => (unit, index)) = _
  rw [missing]
  rfl

end HasUnit

/-- All ways to refer to an entry agree. From any unit, at any point of a session, the place of an
entry in the section leads to the entry, be it in the same unit or in another; so does the place
behind the header of the entry's own unit; and the unit itself finds the entry at the place that it
gives for it. An answer is an entry that begins exactly at the place referred to, and a reference
into a header, into an entry or behind the end leads nowhere. -/
theorem references_agree (intact : image.Intact) (operations : List Operation)
    (isUnit : image.HasUnit unit) :
    (∀ target, image.HasUnit target → ∀ index entry, target.entries[index]? = some entry →
      image.referenceAnswer operations unit
          (.sectionReference (target.header.offset + UnitHeader.size + entry.offset)) =
        .ok (some (target, index)) ∧
      target.indexAtSectionOffset? (target.sectionOffset entry) = some index) ∧
    (∀ index entry, unit.entries[index]? = some entry →
      image.referenceAnswer operations unit (.unitReference (UnitHeader.size + entry.offset)) =
        .ok (some (unit, index))) ∧
    (∀ offset target index,
      image.referenceAnswer operations unit (.sectionReference offset) =
        .ok (some (target, index)) → image.HasUnit target ∧ target.Starts index offset) ∧
    (∀ offset target index,
      image.referenceAnswer operations unit (.unitReference offset) = .ok (some (target, index)) →
        target = unit ∧ target.Starts index (unit.header.offset + offset)) ∧
    (∀ target, image.HasUnit target → ∀ offset,
      target.header.offset ≤ offset ∧ offset < target.header.firstEntry ∨
          target.InsideEntry offset →
        image.referenceAnswer operations unit (.sectionReference offset) = .ok none) ∧
    (∀ offset, image.sections.info.length ≤ offset →
      image.referenceAnswer operations unit (.sectionReference offset) = .ok none) ∧
    ∀ offset, offset < UnitHeader.size ∨ unit.InsideEntry (unit.header.offset + offset) ∨
        unit.header.totalSize ≤ offset →
      image.referenceAnswer operations unit (.unitReference offset) = .ok none := by
  refine ⟨?_, ?_, ?_, ?_, ?_, ?_, ?_⟩
  · intro target isTarget index entry found
    have starts : target.Starts index (target.sectionOffset entry) := ⟨entry, found, rfl⟩
    exact ⟨(isUnit.sectionReference_eq_some intact).mpr ⟨isTarget, starts⟩,
      isTarget.indexAtSectionOffset?_eq_some.mpr starts⟩
  · intro index entry found
    exact isUnit.unitReference_eq_some.mpr ⟨rfl, entry, found, Nat.add_assoc _ _ _⟩
  · intro offset target index answered
    exact (isUnit.sectionReference_eq_some intact).mp answered
  · intro offset target index answered
    obtain ⟨rfl, starts⟩ := isUnit.unitReference_eq_some.mp answered
    exact ⟨rfl, starts⟩
  · intro target isTarget offset between
    exact isUnit.sectionReference_eq_none intact fun other isOther index =>
      isTarget.nowhere_in between isOther index
  · intro offset behind
    rw [referenceAnswer_eq]
    exact isUnit.resolve_behind intact behind
  · intro offset outside
    apply isUnit.unitReference_eq_none
    intro index starts
    rcases outside with inHeader | inside | behind
    · refine isUnit.nowhere_in (.inl ⟨Nat.le_add_right _ _, ?_⟩) isUnit index starts
      unfold UnitHeader.firstEntry
      omega
    · exact isUnit.nowhere_in (.inr inside) isUnit index starts
    · have contains := UnitHeader.contains_iff.mp (isUnit.contains_of_starts starts)
      unfold UnitHeader.stop at contains
      omega

end Sessions

/-- Two units alike, one behind the other. -/
def pairedImage : DebugImage where
  sections := {
    CompileUnit.sampleSections with info := CompileUnit.sampleBytes ++ CompileUnit.sampleBytes }
  index := { sets := [] }

def pairedUnit (offset : Nat) : CompileUnit := CompileUnit.sampleUnit.movedBy offset

theorem paired_decodes : pairedImage.decodeUnit 0 = .ok (pairedUnit 0) ∧
    pairedImage.decodeUnit 15 = .ok (pairedUnit 15) := by
  decide +kernel

theorem paired_reached {offset : Nat}
    (reached : UnitHeader.Reached pairedImage.sections.info offset) :
    offset = 0 ∨ offset = 15 ∨ offset = 30 := by
  induction reached with
  | start => exact .inl rfl
  | @next offset header _ decoded induction =>
      have first := (CompileUnit.decodedAt_of_decode paired_decodes.1).header
      have second := (CompileUnit.decodedAt_of_decode paired_decodes.2).header
      rcases induction with rfl | rfl | rfl
      · rw [show header = (pairedUnit 0).header from Except.ok.inj (decoded.symm.trans first)]
        exact .inr (.inl rfl)
      · rw [show header = (pairedUnit 15).header from Except.ok.inj (decoded.symm.trans second)]
        exact .inr (.inr rfl)
      · have bounds := UnitHeader.bounds_of_decode decoded
        have longer := UnitHeader.lt_stop_of_decode decoded
        have length : pairedImage.sections.info.length = 30 := rfl
        omega

theorem paired_intact : pairedImage.Intact := by
  intro offset reached inside
  have length : pairedImage.sections.info.length = 30 := rfl
  rcases paired_reached reached with rfl | rfl | rfl
  · exact ⟨_, paired_decodes.1⟩
  · exact ⟨_, paired_decodes.2⟩
  · omega

section Samples

open scoped LinkageNames

theorem references_agree_paired :
    pairedImage.referenceAnswer [.unit 15, .unit 7] (pairedUnit 0) (.sectionReference 29) =
        .ok (some (pairedUnit 15, 1)) ∧
      pairedImage.referenceAnswer [] (pairedUnit 0) (.unitReference 11) =
        .ok (some (pairedUnit 0, 0)) ∧
      pairedImage.referenceAnswer [] (pairedUnit 0) (.sectionReference 27) = .ok none ∧
      pairedImage.referenceAnswer [] (pairedUnit 0) (.sectionReference 20) = .ok none := by
  have first : pairedImage.HasUnit (pairedUnit 0) := ⟨.start, paired_decodes.1⟩
  have second : pairedImage.HasUnit (pairedUnit 15) :=
    ⟨first.reached.next first.header_decodes, paired_decodes.2⟩
  obtain ⟨across, _⟩ := references_agree paired_intact [.unit 15, .unit 7] first
  obtain ⟨_, within, _, _, nowhere, _⟩ := references_agree paired_intact [] first
  refine ⟨(across _ second 1 _ rfl).1, within 0 _ rfl, ?_, ?_⟩
  · exact nowhere _ second 27 (.inr ⟨0, _, rfl, by decide, by decide⟩)
  · exact nowhere _ second 20 (.inl ⟨by decide, by decide⟩)

end Samples

end DebugImage

end Symbolication
