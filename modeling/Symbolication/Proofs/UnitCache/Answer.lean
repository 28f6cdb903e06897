import Symbolication.Proofs.DebugImage.Search
import Symbolication.Proofs.UnitCache.Session

/-!
Lookups without a cache. Every lookup answers, from whichever sound cache, what the same search
answers when each unit is decoded anew where it is needed. So what a lookup finds can be said about
decoding alone.
-/

namespace Symbolication

/-- From every sound cache the program gives this answer and leaves a sound cache behind. -/
structure Answers {ε α : Type} (image : DebugImage) (program : ExceptT ε (StateM UnitCache) α)
    (answer : Except ε α) : Prop where
  answer : ∀ cache : UnitCache, cache.Sound image → (program.run.run cache).1 = answer
  sound : ∀ cache : UnitCache, cache.Sound image → (program.run.run cache).2.Sound image

namespace Answers

variable {image : DebugImage} {ε ε' α β : Type} {program : ExceptT ε (StateM UnitCache) α}
  {answer : Except ε α}

protected theorem pure (value : α) :
    Answers image (pure value : ExceptT ε (StateM UnitCache) α) (.ok value) where
  answer _ _ := rfl
  sound _ sound := sound

protected theorem throw (error : ε) :
    Answers image (throw error : ExceptT ε (StateM UnitCache) α) (.error error) where
  answer _ _ := rfl
  sound _ sound := sound

theorem run_bind {continuation : α → ExceptT ε (StateM UnitCache) β} (cache : UnitCache) :
    (program >>= continuation).run.run cache =
      match program.run.run cache with
      | (.error error, cache') => (.error error, cache')
      | (.ok value, cache') => (continuation value).run.run cache' := by
  change (match program.run.run cache with
    | (result, cache') => (ExceptT.bindCont continuation result).run cache') = _
  cases program.run.run cache with
  | mk result cache' => cases result <;> rfl

protected theorem bind {continuation : α → ExceptT ε (StateM UnitCache) β}
    {continuation' : α → Except ε β} (answers : Answers image program answer)
    (answersNext : ∀ value, Answers image (continuation value) (continuation' value)) :
    Answers image (program >>= continuation) (answer >>= continuation') where
  answer := by
    intro cache sound
    have first := answers.answer cache sound
    have kept := answers.sound cache sound
    rw [run_bind]
    revert first kept
    cases program.run.run cache with
    | mk result cache' =>
        rintro rfl kept
        cases result with
        | error error => rfl
        | ok value => exact (answersNext value).answer cache' kept
  sound := by
    intro cache sound
    have kept := answers.sound cache sound
    rw [run_bind]
    revert kept
    cases program.run.run cache with
    | mk result cache' =>
        intro kept
        cases result with
        | error error => exact kept
        | ok value => exact (answersNext value).sound cache' kept

/-- Relates every program with a cache to what it answers. -/
def relation (image : DebugImage) : MonadRelation (ExceptT ε (StateM UnitCache)) (Except ε) where
  Related := Answers image
  pure := .pure
  bind := .bind

protected theorem map (answers : Answers image program answer) (function : α → β) :
    Answers image (function <$> program) (function <$> answer) :=
  (relation image).map answers function

theorem adapt (answers : Answers image program answer) (function : ε → ε') :
    Answers image (program.adapt function) (answer.mapError function) where
  answer := by
    intro cache sound
    rw [← answers.answer cache sound]
    change (Except.mapError function (program.run.run cache).1) = _
    rfl
  sound := answers.sound

theorem lift (result : Except DecodeError α) :
    Answers image (monadLift result : Lookup α) result := by
  cases result with
  | error error => exact .throw error
  | ok value => exact .pure value

end Answers

namespace DebugImage

variable (image : DebugImage)

theorem unit_answers (offset : Nat) :
    Answers image (image.unit offset) (image.decodeUnit offset) where
  answer _ sound := (image.run_unit_of_sound sound offset).1
  sound _ sound := (image.run_unit_of_sound sound offset).2.1

/-- The unit that contains an offset, decoded anew. -/
def decodeContaining (offset : Nat) : Except DecodeError (Option CompileUnit) :=
  image.containingWith image.decodeUnit offset

theorem unitContaining_answers (offset : Nat) :
    Answers image (image.unitContaining offset) (image.decodeContaining offset) :=
  containingWith_related (Answers.relation image) image.unit_answers offset (.lift _)

theorem resolveReference_answers (unit : CompileUnit) (reference : AttributeValue) :
    Answers image (unit.resolveReference image.unitContaining reference)
      (unit.resolveReference image.decodeContaining reference) :=
  CompileUnit.resolveReference_related (Answers.relation image) image.unitContaining_answers unit
    reference

theorem qualifiedName_answers (unit : CompileUnit) (index : Nat) :
    Answers image (image.qualifiedName unit index)
      (unit.qualifiedName image.decodeContaining index) :=
  CompileUnit.nameWithinHops_related (Answers.relation image) image.unitContaining_answers _ unit
    index

variable [LinkageNames]

theorem functionName_answers (unit : CompileUnit) (index : Nat) :
    Answers image (image.functionName unit index)
      (unit.functionName image.decodeContaining index) :=
  CompileUnit.functionName_related (Answers.relation image) image.unitContaining_answers unit index

theorem functionAt_answers (unit : CompileUnit) (address : UInt64) :
    Answers image (image.functionAt unit address)
      (image.functionAtWith image.decodeUnit unit address) :=
  CompileUnit.functionAt_related (Answers.relation image) image.unitContaining_answers unit _
    address (.lift _)

theorem resolve_answers (address : UInt64) :
    Answers image (image.resolve address) (image.resolveWith image.decodeUnit address) :=
  resolveWith_related (Answers.relation image) image.unit_answers address fun unit =>
    image.functionAt_answers unit address

end DebugImage

variable [LinkageNames]

namespace Operation

/-- What an operation answers when every unit it needs is decoded anew. -/
def decoded (image : DebugImage) : Operation → Except ResolveError Answer
  | resolve address =>
      .location <$> (image.resolveWith image.decodeUnit address).mapError .decode
  | resolveText text =>
      match Address.parse? text with
      | none => .error (.invalidAddress text)
      | some address =>
          .location <$> (image.resolveWith image.decodeUnit address).mapError .decode
  | unit offset => .unit <$> (image.decodeUnit offset).mapError .decode
  | unitContaining offset => .containing <$> (image.decodeContaining offset).mapError .decode
  | functionAt unitOffset address => do
      let unit ← (image.decodeUnit unitOffset).mapError .decode
      .name <$> (image.functionAtWith image.decodeUnit unit address).mapError .decode
  | functionName unitOffset index => do
      let unit ← (image.decodeUnit unitOffset).mapError .decode
      .name <$> (unit.functionName image.decodeContaining index).mapError .decode
  | qualifiedName unitOffset index => do
      let unit ← (image.decodeUnit unitOffset).mapError .decode
      .name <$> (unit.qualifiedName image.decodeContaining index).mapError .decode

theorem run_answers (image : DebugImage) (operation : Operation) :
    Answers image (operation.run image) (operation.decoded image) := by
  have taken (offset : Nat) := (image.unit_answers offset).adapt ResolveError.decode
  cases operation with
  | resolve address => exact ((image.resolve_answers address).adapt _).map _
  | resolveText text =>
      unfold run DebugImage.resolveText decoded
      dsimp only
      cases Address.parse? text with
      | none => exact (Answers.throw _).map _
      | some address => exact ((image.resolve_answers address).adapt _).map _
  | unit offset => exact (taken offset).map _
  | unitContaining offset => exact ((image.unitContaining_answers offset).adapt _).map _
  | functionAt unitOffset address =>
      exact (taken unitOffset).bind fun unit =>
        ((image.functionAt_answers unit address).adapt _).map _
  | functionName unitOffset index =>
      exact (taken unitOffset).bind fun unit =>
        ((image.functionName_answers unit index).adapt _).map _
  | qualifiedName unitOffset index =>
      exact (taken unitOffset).bind fun unit =>
        ((image.qualifiedName_answers unit index).adapt _).map _

end Operation

theorem DebugImage.sessionAnswers_eq_decoded (image : DebugImage) (operations : List Operation) :
    image.sessionAnswers operations = operations.map (·.decoded image) := by
  rw [image.sessionAnswers_eq_map]
  exact List.map_congr_left fun operation _ =>
    (operation.run_answers image).answer .empty (.empty image)

end Symbolication
