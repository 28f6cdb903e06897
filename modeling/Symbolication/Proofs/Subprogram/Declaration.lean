import Symbolication.Proofs.CompileUnit.Reference

/-!
The entry that another one refers to as its declaration, in the same unit or in another one. The
search for the other unit may fail, at a header on the way or in the unit itself; a reference that
leads to the beginning of no entry ends there.
-/

namespace Symbolication

namespace CompileUnit

/-- The reference of an entry to its declaration. An abstract origin counts only where there is no
specification. -/
inductive HasReference (unit : CompileUnit) (index : Nat) (reference : AttributeValue) : Prop
  | specification {entry : Entry} : unit.entries[index]? = some entry →
      entry.value? .specification = some reference → HasReference unit index reference
  | abstractOrigin {entry : Entry} : unit.entries[index]? = some entry →
      entry.value? .specification = none → entry.value? .abstractOrigin = some reference →
        HasReference unit index reference

theorem hasReference_iff {unit : CompileUnit} {index : Nat} {reference : AttributeValue} :
    unit.HasReference index reference ↔
      (unit.entries[index]?).bind declaration? = some reference := by
  constructor
  · rintro (⟨found, specified⟩ | ⟨found, unspecified, originates⟩)
    · rw [found, Option.bind_some, declaration?, specified]
      rfl
    · rw [found, Option.bind_some, declaration?, unspecified, originates]
      rfl
  · intro declared
    obtain ⟨entry, found, declares⟩ := Option.bind_eq_some_iff.mp declared
    unfold declaration? at declares
    cases specified : entry.value? .specification with
    | none =>
        rw [specified] at declares
        exact .abstractOrigin found specified declares
    | some value =>
        rw [specified] at declares
        cases declares
        exact .specification found specified

end CompileUnit

namespace DebugImage

/-- The entry that a reference in a unit leads to. -/
inductive RefersTo (image : DebugImage) (unit : CompileUnit) :
    AttributeValue → CompileUnit → Nat → Prop
  | fromHeader {offset index : Nat} : unit.Starts index (unit.header.offset + offset) →
      RefersTo image unit (.unitReference offset) unit index
  | inside {offset index : Nat} : unit.header.contains offset → unit.Starts index offset →
      RefersTo image unit (.sectionReference offset) unit index
  | outside {offset index : Nat} {other : CompileUnit} : ¬unit.header.contains offset →
      image.HasUnit other → other.Starts index offset →
        RefersTo image unit (.sectionReference offset) other index

/-- An entry refers to another one, in the same unit or in another. -/
def Next (image : DebugImage) (unit : CompileUnit) (index : Nat) (target : CompileUnit)
    (position : Nat) : Prop :=
  ∃ reference, unit.HasReference index reference ∧ image.RefersTo unit reference target position

/-- The unit that an entry refers to cannot be had. -/
def NextFails (image : DebugImage) (unit : CompileUnit) (index : Nat) (error : DecodeError) :
    Prop :=
  ∃ offset, unit.HasReference index (.sectionReference offset) ∧ ¬unit.header.contains offset ∧
    image.SearchFails offset error

/-- The references end with this entry. -/
structure Ends (image : DebugImage) (unit : CompileUnit) (index : Nat) : Prop where
  nothing : ∀ target position, ¬image.Next unit index target position
  unfailing : ∀ error, ¬image.NextFails unit index error

variable {image : DebugImage} {unit target : CompileUnit} {index position offset : Nat}
  {error : DecodeError} {reference : AttributeValue}

theorem HasUnit.isDecoded (isUnit : image.HasUnit unit) : unit.IsDecoded :=
  ⟨_, _, isUnit.decodedAt⟩

theorem indexed_eq_some {index? : Option Nat} :
    (Except.ok (index?.map fun index => (unit, index)) : Except DecodeError _) =
        .ok (some (target, position)) ↔ target = unit ∧ index? = some position := by
  cases index? with
  | none => simp
  | some index => simp [eq_comm]

theorem resolveReference_eq_some_iff (isDecoded : unit.IsDecoded) :
    unit.resolveReference image.decodeContaining reference = .ok (some (target, position)) ↔
      image.RefersTo unit reference target position := by
  obtain ⟨_, _, decoded⟩ := isDecoded
  cases reference with
  | unitReference offset =>
      change Except.ok ((unit.indexAtUnitOffset? offset).map fun index => (unit, index)) = _ ↔ _
      rw [indexed_eq_some, decoded.indexAtUnitOffset?_eq_some]
      constructor
      · rintro ⟨rfl, starts⟩
        exact .fromHeader starts
      · rintro ⟨starts⟩
        exact ⟨rfl, starts⟩
  | sectionReference offset =>
      by_cases contains : unit.header.contains offset
      · rw [resolve_inside contains, indexed_eq_some, decoded.indexAtSectionOffset?_eq_some]
        constructor
        · rintro ⟨rfl, starts⟩
          exact .inside contains starts
        · intro refers
          cases refers with
          | inside _ starts => exact ⟨rfl, starts⟩
          | outside outside => exact absurd contains outside
      · rw [resolve_outside contains, bind_eq_ok]
        constructor
        · rintro ⟨other?, found, answered⟩
          cases other? with
          | none => cases answered
          | some other =>
              obtain ⟨isOther, _⟩ := decodeContaining_eq_some_iff.mp found
              obtain ⟨rfl, found⟩ := indexed_eq_some.mp answered
              exact .outside contains isOther (isOther.indexAtSectionOffset?_eq_some.mp found)
        · intro refers
          cases refers with
          | inside inside => exact absurd inside contains
          | outside _ isOther starts =>
              have found := isOther.indexAtSectionOffset?_eq_some.mpr starts
              exact ⟨some target,
                decodeContaining_eq_some_iff.mpr ⟨isOther, isOther.contains_of_starts starts⟩,
                indexed_eq_some.mpr ⟨rfl, found⟩⟩
  | _ =>
      constructor
      · intro answered
        cases answered
      · intro refers
        cases refers

theorem resolveReference_eq_error_iff :
    unit.resolveReference image.decodeContaining reference = .error error ↔
      ∃ offset, reference = .sectionReference offset ∧ ¬unit.header.contains offset ∧
        image.SearchFails offset error := by
  constructor
  · intro failed
    cases reference with
    | sectionReference offset =>
        by_cases contains : unit.header.contains offset
        · rw [resolve_inside contains] at failed
          cases failed
        · rw [resolve_outside contains] at failed
          obtain failed | ⟨_, _, failed⟩ := bind_eq_error.mp failed
          · exact ⟨offset, rfl, contains, decodeContaining_eq_error_iff.mp failed⟩
          · cases failed
    | _ => cases failed
  · rintro ⟨offset, rfl, outside, fails⟩
    rw [resolve_outside outside]
    exact bind_eq_error.mpr (.inl (decodeContaining_eq_error_iff.mpr fails))

theorem Next.isDecoded (next : image.Next unit index target position) (isDecoded : unit.IsDecoded) :
    target.IsDecoded := by
  obtain ⟨_, _, refers⟩ := next
  cases refers with
  | fromHeader | inside => exact isDecoded
  | outside _ isOther => exact isOther.isDecoded

end DebugImage

end Symbolication
