import Mathlib.Data.Finset.Card
import Mathlib.Data.Finset.Dedup
import Symbolication.Proofs.DebugImage.Search

/-!
Programs over the unit cache that no history can influence. A cache is sound when it keeps, once
each, only units that decoding yields, and has counted as many as it keeps. On every sound cache a
steady program gives the answer it gives on the empty one, and fills the same further cells;
steadiness is kept by sequencing, so every lookup is steady because decoding a single unit is.
-/

namespace Symbolication

namespace UnitCache

def filled (cache : UnitCache) : Finset Nat := (cache.units.map (·.1)).toFinset

structure Sound (image : DebugImage) (cache : UnitCache) : Prop where
  decoded : ∀ cell ∈ cache.units, image.decodeUnit cell.1 = .ok cell.2
  distinct : (cache.units.map (·.1)).Nodup
  counted : cache.size = cache.units.length

theorem mem_of_find? {cache : UnitCache} {offset : Nat} {unit : CompileUnit}
    (kept : cache.find? offset = some unit) : (offset, unit) ∈ cache.units := by
  obtain ⟨before, after, split, _⟩ := List.lookup_eq_some_iff.mp kept
  rw [split]
  simp

theorem find?_eq_none_iff {cache : UnitCache} {offset : Nat} :
    cache.find? offset = none ↔ offset ∉ cache.filled := by
  unfold find? filled
  rw [List.lookup_eq_none_iff, List.mem_toFinset, List.mem_map]
  constructor
  · rintro absent ⟨cell, member, same⟩
    have different := absent cell member
    simp [same] at different
  · intro absent cell member
    rw [bne_iff_ne]
    intro same
    exact absent ⟨cell, member, same.symm⟩

theorem mem_filled_iff {cache : UnitCache} {offset : Nat} :
    offset ∈ cache.filled ↔ ∃ unit, cache.find? offset = some unit := by
  rw [← Option.ne_none_iff_exists', ne_eq, find?_eq_none_iff, not_not]

@[simp] theorem filled_empty : UnitCache.empty.filled = ∅ := rfl

@[simp] theorem filled_raise (cache : UnitCache) : cache.raise.filled = cache.filled := rfl

@[simp] theorem filled_insert (cache : UnitCache) (offset : Nat) (unit : CompileUnit) :
    (cache.insert offset unit).filled = cache.filled ∪ {offset} := by
  unfold filled UnitCache.insert
  rw [List.map_cons, List.toFinset_cons, Finset.insert_eq, Finset.union_comm]

namespace Sound

variable {image : DebugImage} {cache : UnitCache} {offset : Nat} {unit : CompileUnit}

theorem empty (image : DebugImage) : UnitCache.empty.Sound image where
  decoded := by simp [UnitCache.empty]
  distinct := by simp [UnitCache.empty]
  counted := rfl

theorem decode_of_find? (sound : cache.Sound image) (kept : cache.find? offset = some unit) :
    image.decodeUnit offset = .ok unit :=
  sound.decoded _ (mem_of_find? kept)

theorem find?_of_decode_error (sound : cache.Sound image) {error : DecodeError}
    (failed : image.decodeUnit offset = .error error) : cache.find? offset = none := by
  cases kept : cache.find? offset with
  | none => rfl
  | some unit =>
      rw [sound.decode_of_find? kept] at failed
      cases failed

theorem insert (sound : cache.Sound image) (absent : cache.find? offset = none)
    (decoded : image.decodeUnit offset = .ok unit) :
    (cache.raise.insert offset unit).Sound image where
  decoded := by
    intro cell member
    rcases List.mem_cons.mp member with rfl | member
    · exact decoded
    · exact sound.decoded cell member
  distinct := by
    rw [find?_eq_none_iff, filled, List.mem_toFinset] at absent
    exact List.nodup_cons.mpr ⟨absent, sound.distinct⟩
  counted := congrArg (· + 1) sound.counted

theorem size_eq_card (sound : cache.Sound image) : cache.size = cache.filled.card := by
  rw [filled, List.toFinset_card_of_nodup sound.distinct, List.length_map, sound.counted]

end Sound

end UnitCache

/-- Where the cache is sound, what it holds changes neither the answer nor which cells are filled
on top of those that are. -/
structure Steady {α : Type} (image : DebugImage) (program : StateM UnitCache α) : Prop where
  sound : ∀ cache : UnitCache, cache.Sound image → (program.run cache).2.Sound image
  answer : ∀ cache : UnitCache, cache.Sound image →
    (program.run cache).1 = (program.run .empty).1
  filled : ∀ cache : UnitCache, cache.Sound image →
    (program.run cache).2.filled = cache.filled ∪ (program.run .empty).2.filled

namespace Steady

variable {image : DebugImage} {α β ε ε' : Type}

protected theorem pure (value : α) : Steady image (pure value : StateM UnitCache α) where
  sound _ sound := sound
  answer _ _ := rfl
  filled cache _ := by
    change cache.filled = cache.filled ∪ UnitCache.empty.filled
    simp

protected theorem bind {program : StateM UnitCache α} {continuation : α → StateM UnitCache β}
    (steady : Steady image program) (steadyNext : ∀ value, Steady image (continuation value)) :
    Steady image (program >>= continuation) := by
  have run_bind (cache : UnitCache) : (program >>= continuation).run cache =
      (continuation (program.run cache).1).run (program.run cache).2 := rfl
  have freshSound := steady.sound .empty (.empty image)
  constructor
  · intro cache sound
    rw [run_bind]
    exact (steadyNext _).sound _ (steady.sound cache sound)
  · intro cache sound
    rw [run_bind, run_bind, steady.answer cache sound,
      (steadyNext _).answer _ (steady.sound cache sound), (steadyNext _).answer _ freshSound]
  · intro cache sound
    rw [run_bind, run_bind, steady.answer cache sound,
      (steadyNext _).filled _ (steady.sound cache sound), (steadyNext _).filled _ freshSound,
      steady.filled cache sound, Finset.union_assoc]

protected theorem map {program : StateM UnitCache α} (steady : Steady image program)
    (function : α → β) : Steady image (function <$> program) :=
  steady.bind fun value => .pure (function value)

/-- A program that may fail is steady when what it does up to the failure is. -/
theorem bindExcept {program : ExceptT ε (StateM UnitCache) α}
    {continuation : α → ExceptT ε (StateM UnitCache) β} (steady : Steady image program.run)
    (steadyNext : ∀ value, Steady image (continuation value).run) :
    Steady image (program >>= continuation).run := by
  rw [ExceptT.run_bind]
  apply steady.bind
  intro result
  cases result with
  | ok value => exact steadyNext value
  | error error => exact .pure _

theorem pureExcept (value : α) :
    Steady image (pure value : ExceptT ε (StateM UnitCache) α).run :=
  .pure _

theorem mapExcept {program : ExceptT ε (StateM UnitCache) α} (steady : Steady image program.run)
    (function : α → β) : Steady image (function <$> program).run := by
  rw [ExceptT.run_map]
  exact steady.map _

theorem adapt {program : ExceptT ε (StateM UnitCache) α} (steady : Steady image program.run)
    (function : ε → ε') : Steady image (program.adapt function).run :=
  steady.map _

theorem lift (result : Except DecodeError α) :
    Steady image (monadLift result : Lookup α).run := by
  cases result <;> exact .pure _

/-- Relates every steady lookup to itself. -/
def relation (image : DebugImage) : MonadRelation Lookup Lookup :=
  .ofProperty (fun program => Steady image program.run) pureExcept bindExcept

theorem mapM {step : α → StateM UnitCache β} (steady : ∀ value, Steady image (step value))
    (values : List α) : Steady image (values.mapM step) := by
  induction values with
  | nil => exact .pure []
  | cons value values induction =>
      rw [List.mapM_cons]
      exact (steady value).bind fun first => induction.bind fun others => .pure (first :: others)

end Steady

namespace DebugImage

variable (image : DebugImage)

theorem run_unit (offset : Nat) (cache : UnitCache) :
    (image.unit offset).run.run cache =
      match cache.find? offset with
      | some unit => (.ok unit, cache)
      | none =>
          match image.decodeUnit offset with
          | .error error => (.error error, cache)
          | .ok unit => (.ok unit, cache.raise.insert offset unit) := by
  unfold unit
  change StateT.run (ExceptT.run
    (match cache.find? offset with | some unit => _ | none => _)) cache = _
  cases cache.find? offset with
  | some unit => rfl
  | none => cases image.decodeUnit offset <;> rfl

/-- The answer is what decoding yields, from whichever cache; only a success fills the cell. -/
theorem run_unit_of_sound {cache : UnitCache} (sound : cache.Sound image) (offset : Nat) :
    ((image.unit offset).run.run cache).1 = image.decodeUnit offset ∧
      ((image.unit offset).run.run cache).2.Sound image ∧
      ((image.unit offset).run.run cache).2.filled =
        cache.filled ∪
          (match image.decodeUnit offset with | .ok _ => {offset} | .error _ => ∅) := by
  rw [run_unit]
  cases kept : cache.find? offset with
  | some unit =>
      have decoded := sound.decode_of_find? kept
      have member := UnitCache.mem_filled_iff.mpr ⟨unit, kept⟩
      rw [decoded]
      exact ⟨rfl, sound, (Finset.union_eq_left.mpr (Finset.singleton_subset_iff.mpr member)).symm⟩
  | none =>
      cases decoded : image.decodeUnit offset with
      | error error => exact ⟨rfl, sound, (Finset.union_empty _).symm⟩
      | ok unit =>
          refine ⟨rfl, sound.insert kept decoded, ?_⟩
          rw [UnitCache.filled_insert, UnitCache.filled_raise]

theorem unit_steady (offset : Nat) : Steady image (image.unit offset).run := by
  have fresh := image.run_unit_of_sound (.empty image) offset
  constructor
  · intro cache sound
    exact (image.run_unit_of_sound sound offset).2.1
  · intro cache sound
    exact (image.run_unit_of_sound sound offset).1.trans fresh.1.symm
  · intro cache sound
    rw [(image.run_unit_of_sound sound offset).2.2, fresh.2.2, UnitCache.filled_empty,
      Finset.empty_union]

theorem unitContaining_steady (offset : Nat) : Steady image (image.unitContaining offset).run :=
  (containingWith_related (Steady.relation image) (fun place => ⟨rfl, image.unit_steady place⟩)
    offset ⟨rfl, .lift _⟩).2

theorem qualifiedName_steady (unit : CompileUnit) (index : Nat) :
    Steady image (image.qualifiedName unit index).run :=
  (CompileUnit.nameWithinHops_related (Steady.relation image)
    (fun place => ⟨rfl, image.unitContaining_steady place⟩) _ unit index).2

variable [LinkageNames]

theorem functionName_steady (unit : CompileUnit) (index : Nat) :
    Steady image (image.functionName unit index).run :=
  (CompileUnit.functionName_related (Steady.relation image)
    (fun place => ⟨rfl, image.unitContaining_steady place⟩) unit index).2

theorem functionAt_steady (unit : CompileUnit) (address : UInt64) :
    Steady image (image.functionAt unit address).run :=
  (CompileUnit.functionAt_related (Steady.relation image)
    (fun place => ⟨rfl, image.unitContaining_steady place⟩) unit _ address ⟨rfl, .lift _⟩).2

theorem resolve_steady (address : UInt64) : Steady image (image.resolve address).run :=
  (resolveWith_related (Steady.relation image) (fun place => ⟨rfl, image.unit_steady place⟩)
    address fun unit => ⟨rfl, image.functionAt_steady unit address⟩).2

theorem resolveText_steady (text : String) : Steady image (image.resolveText text).run := by
  unfold resolveText
  split
  · exact .pure _
  · exact (image.resolve_steady _).adapt ResolveError.decode

end DebugImage

end Symbolication
