import Mathlib.Data.Finset.Card
import Mathlib.Data.Finset.Dedup
import Mathlib.Data.Finset.Union
import Mathlib.Data.List.Perm.Basic
import Symbolication.Proofs.UnitCache.Steady

/-!
Sessions: any number of operations, one after the other, on one image. Each is answered as if it
were the first one, whatever was decoded before it and whichever of them failed; the cells filled in
the end are those that the operations fill alone, so their order changes no answer and no count.
-/

namespace Symbolication

/-- A question to an image. Those about entries take their unit by its offset first. -/
inductive Operation where
  | resolve (address : UInt64)
  | resolveText (text : String)
  | unit (offset : Nat)
  | unitContaining (offset : Nat)
  | functionAt (unitOffset : Nat) (address : UInt64)
  | functionName (unitOffset index : Nat)
  | qualifiedName (unitOffset index : Nat)
deriving DecidableEq, Repr

inductive Answer where
  | location (location? : Option Location)
  | unit (unit : CompileUnit)
  | containing (unit? : Option CompileUnit)
  | name (name? : Option String)
deriving DecidableEq, Repr

/-- A program that may fail on an address's text as well as on decoding. -/
abbrev Request := ExceptT ResolveError (StateM UnitCache)

variable [LinkageNames]

namespace Operation

def decoding {α : Type} (lookup : Lookup α) : Request α := lookup.adapt ResolveError.decode

def run (image : DebugImage) : Operation → Request Answer
  | resolve address => .location <$> decoding (image.resolve address)
  | resolveText text => .location <$> image.resolveText text
  | unit offset => .unit <$> decoding (image.unit offset)
  | unitContaining offset => .containing <$> decoding (image.unitContaining offset)
  | functionAt unitOffset address => do
      let unit ← decoding (image.unit unitOffset)
      .name <$> decoding (image.functionAt unit address)
  | functionName unitOffset index => do
      let unit ← decoding (image.unit unitOffset)
      .name <$> decoding (image.functionName unit index)
  | qualifiedName unitOffset index => do
      let unit ← decoding (image.unit unitOffset)
      .name <$> decoding (image.qualifiedName unit index)

theorem run_steady (image : DebugImage) (operation : Operation) :
    Steady image (operation.run image).run := by
  have taken (offset : Nat) := (image.unit_steady offset).adapt ResolveError.decode
  cases operation with
  | resolve address => exact ((image.resolve_steady address).adapt _).mapExcept _
  | resolveText text => exact (image.resolveText_steady text).mapExcept _
  | unit offset => exact (taken offset).mapExcept _
  | unitContaining offset => exact ((image.unitContaining_steady offset).adapt _).mapExcept _
  | functionAt unitOffset address =>
      exact (taken unitOffset).bindExcept fun unit =>
        ((image.functionAt_steady unit address).adapt _).mapExcept _
  | functionName unitOffset index =>
      exact (taken unitOffset).bindExcept fun unit =>
        ((image.functionName_steady unit index).adapt _).mapExcept _
  | qualifiedName unitOffset index =>
      exact (taken unitOffset).bindExcept fun unit =>
        ((image.qualifiedName_steady unit index).adapt _).mapExcept _

end Operation

namespace DebugImage

variable (image : DebugImage)

/-- The answers of operations asked in order, each on what the ones before it left in the cache. -/
def session (operations : List Operation) : StateM UnitCache (List (Except ResolveError Answer)) :=
  operations.mapM fun operation => (operation.run image).run

/-- What an operation answers, and which cells it fills, on an image just opened. -/
def freshAnswer (operation : Operation) : Except ResolveError Answer :=
  ((operation.run image).run.run .empty).1

def freshlyFilled (operation : Operation) : Finset Nat :=
  ((operation.run image).run.run .empty).2.filled

def sessionAnswers (operations : List Operation) : List (Except ResolveError Answer) :=
  ((image.session operations).run .empty).1

def sessionCache (operations : List Operation) : UnitCache :=
  ((image.session operations).run .empty).2

theorem session_steady (operations : List Operation) : Steady image (image.session operations) :=
  .mapM (Operation.run_steady image) operations

theorem run_session_cons (operation : Operation) (operations : List Operation)
    (cache : UnitCache) :
    (image.session (operation :: operations)).run cache =
      (((operation.run image).run.run cache).1 ::
          ((image.session operations).run ((operation.run image).run.run cache).2).1,
        ((image.session operations).run ((operation.run image).run.run cache).2).2) := by
  simp only [session, List.mapM_cons]
  rfl

theorem sessionCache_sound (operations : List Operation) :
    (image.sessionCache operations).Sound image :=
  (image.session_steady operations).sound .empty (.empty image)

theorem session_answer_of_sound {cache : UnitCache} (sound : cache.Sound image)
    (operations : List Operation) :
    ((image.session operations).run cache).1 = operations.map image.freshAnswer := by
  -- Of the cache that an operation leaves behind, only its soundness is carried on.
  induction operations generalizing cache with
  | nil => rfl
  | cons operation operations induction =>
      have steady := operation.run_steady image
      rw [run_session_cons]
      rw [induction (steady.sound cache sound), steady.answer cache sound]
      rfl

theorem session_filled_of_sound {cache : UnitCache} (sound : cache.Sound image)
    (operations : List Operation) :
    ((image.session operations).run cache).2.filled =
      cache.filled ∪ operations.toFinset.biUnion image.freshlyFilled := by
  induction operations generalizing cache with
  | nil =>
      change cache.filled = _
      simp
  | cons operation operations induction =>
      have steady := operation.run_steady image
      rw [run_session_cons]
      rw [induction (steady.sound cache sound), steady.filled cache sound, List.toFinset_cons,
        Finset.biUnion_insert, Finset.union_assoc]
      rfl

theorem sessionAnswers_eq_map (operations : List Operation) :
    image.sessionAnswers operations = operations.map image.freshAnswer :=
  image.session_answer_of_sound (.empty image) operations

theorem sessionCache_filled (operations : List Operation) :
    (image.sessionCache operations).filled = operations.toFinset.biUnion image.freshlyFilled := by
  unfold sessionCache
  rw [image.session_filled_of_sound (.empty image), UnitCache.filled_empty, Finset.empty_union]

theorem sessionCache_size (operations : List Operation) :
    (image.sessionCache operations).size =
      (operations.toFinset.biUnion image.freshlyFilled).card := by
  rw [(image.sessionCache_sound operations).size_eq_card, sessionCache_filled]

theorem filled_subset_append (operations later : List Operation) :
    (image.sessionCache operations).filled ⊆ (image.sessionCache (operations ++ later)).filled := by
  rw [sessionCache_filled, sessionCache_filled, List.toFinset_append]
  exact Finset.biUnion_subset_biUnion_of_subset_left _ Finset.subset_union_left

/-- Keeping units shows in no answer. Every operation of a session, those after failures included,
answers as on an image just opened; a filled cell holds the unit that header and contents at its
offset decode to, and a cell whose unit does not decode is empty. -/
theorem session_is_transparent (operations : List Operation) :
    image.sessionAnswers operations = operations.map image.freshAnswer ∧
      (∀ offset unit, (image.sessionCache operations).find? offset = some unit →
        ∃ header, UnitHeader.decode image.sections.info offset = .ok header ∧
          CompileUnit.ofHeader image.sections header = .ok unit) ∧
      (∀ offset error, image.decodeUnit offset = .error error →
        (image.sessionCache operations).find? offset = none) := by
  have sound := image.sessionCache_sound operations
  refine ⟨image.sessionAnswers_eq_map operations, ?_, ?_⟩
  · intro offset unit kept
    have decoded := sound.decode_of_find? kept
    unfold decodeUnit CompileUnit.decode at decoded
    cases header : UnitHeader.decode image.sections.info offset with
    | error error =>
        rw [header] at decoded
        cases decoded
    | ok value =>
        rw [header] at decoded
        exact ⟨value, rfl, decoded⟩
  · intro offset error failed
    exact sound.find?_of_decode_error failed

/-- The units decoded in a session are those that its operations decode alone, each counted once and
a failing one never. The count does not fall as operations follow, and operations in another order
are answered and counted as before. -/
theorem session_counts_union (operations : List Operation) :
    (image.sessionCache operations).filled = operations.toFinset.biUnion image.freshlyFilled ∧
      (image.sessionCache operations).size =
        (operations.toFinset.biUnion image.freshlyFilled).card ∧
      (∀ offset error, image.decodeUnit offset = .error error →
        offset ∉ (image.sessionCache operations).filled) ∧
      (∀ later, (image.sessionCache operations).size ≤
        (image.sessionCache (operations ++ later)).size) ∧
      (∀ reordered, operations.Perm reordered →
        (operations.zip (image.sessionAnswers operations)).Perm
            (reordered.zip (image.sessionAnswers reordered)) ∧
          (image.sessionCache reordered).size = (image.sessionCache operations).size) := by
  have sound := image.sessionCache_sound operations
  refine ⟨image.sessionCache_filled operations, image.sessionCache_size operations, ?_, ?_, ?_⟩
  · intro offset error failed
    exact UnitCache.find?_eq_none_iff.mp (sound.find?_of_decode_error failed)
  · intro later
    rw [sound.size_eq_card, (image.sessionCache_sound (operations ++ later)).size_eq_card]
    exact Finset.card_le_card (image.filled_subset_append operations later)
  · intro reordered permutation
    constructor
    · rw [sessionAnswers_eq_map, sessionAnswers_eq_map, ← List.map_prod_left_eq_zip,
        ← List.map_prod_left_eq_zip]
      exact permutation.map _
    · rw [sessionCache_size, sessionCache_size, List.toFinset_eq_of_perm _ _ permutation]

end DebugImage

end Symbolication
