import Symbolication.DebugImage

/-!
The searches for a name and for a location run in any monad, and use it only to sequence. So a
relation between the programs of two monads that sequencing keeps is kept by every search, once the
units that the searches fetch are related.
-/

namespace Symbolication

/-- A relation between the programs of two monads that sequencing keeps. -/
structure MonadRelation (m n : Type → Type) [Monad m] [Monad n] where
  Related : {α : Type} → m α → n α → Prop
  pure : ∀ {α : Type} (value : α), Related (pure value) (pure value)
  bind : ∀ {α β : Type} {program : m α} {program' : n α} {continuation : α → m β}
    {continuation' : α → n β}, Related program program' →
      (∀ value, Related (continuation value) (continuation' value)) →
        Related (program >>= continuation) (program' >>= continuation')

variable {m n : Type → Type} [Monad m] [Monad n]

/-- The relation of every program to itself that has a property which sequencing keeps. -/
def MonadRelation.ofProperty (Holds : {α : Type} → m α → Prop)
    (holdsPure : ∀ {α : Type} (value : α), Holds (Pure.pure value))
    (holdsBind : ∀ {α β : Type} {program : m α} {continuation : α → m β}, Holds program →
      (∀ value, Holds (continuation value)) → Holds (program >>= continuation)) :
    MonadRelation m m where
  Related program program' := program = program' ∧ Holds program
  pure value := ⟨rfl, holdsPure value⟩
  bind := by
    rintro α β program _ continuation continuation' ⟨rfl, holds⟩ related
    have same : continuation = continuation' := funext fun value => (related value).1
    exact ⟨by rw [same], holdsBind holds fun value => (related value).2⟩

theorem MonadRelation.map [LawfulMonad m] [LawfulMonad n] (relation : MonadRelation m n)
    {α β : Type} {program : m α} {program' : n α} (related : relation.Related program program')
    (function : α → β) : relation.Related (function <$> program) (function <$> program') := by
  rw [← bind_pure_comp, ← bind_pure_comp]
  exact relation.bind related fun value => relation.pure (function value)

namespace CompileUnit

variable (relation : MonadRelation m n) {containing? : Nat → m (Option CompileUnit)}
  {containing?' : Nat → n (Option CompileUnit)}

theorem resolveReference_related
    (related : ∀ offset, relation.Related (containing? offset) (containing?' offset))
    (unit : CompileUnit) (reference : AttributeValue) :
    relation.Related (resolveReference containing? unit reference)
      (resolveReference containing?' unit reference) := by
  unfold resolveReference
  split
  · exact relation.pure _
  · split
    · exact relation.pure _
    · exact relation.bind (related _) fun _ => relation.pure _
  · exact relation.pure _

theorem nameWithinHops_related
    (related : ∀ offset, relation.Related (containing? offset) (containing?' offset)) (hops : Nat)
    (unit : CompileUnit) (index : Nat) :
    relation.Related (nameWithinHops containing? hops unit index)
      (nameWithinHops containing?' hops unit index) := by
  -- A hop leads to any unit and any entry, so the hypothesis is about all of them.
  induction hops generalizing unit index with
  | zero => exact relation.pure none
  | succ hops induction =>
      unfold nameWithinHops
      split
      · exact relation.pure none
      · apply relation.bind (resolveReference_related relation related unit _)
        intro target?
        cases target? with
        | none => exact relation.pure none
        | some target =>
            obtain ⟨other, position⟩ := target
            dsimp only
            split
            · exact relation.pure _
            · exact induction other position

theorem functionName_related [LinkageNames]
    (related : ∀ offset, relation.Related (containing? offset) (containing?' offset))
    (unit : CompileUnit) (index : Nat) :
    relation.Related (functionName containing? unit index)
      (functionName containing?' unit index) := by
  unfold functionName
  split
  · exact relation.pure none
  · split
    · exact relation.pure _
    · apply relation.bind (nameWithinHops_related relation related maximumHops unit index)
      intro name?
      cases name? with
      | none => exact relation.pure _
      | some name => exact relation.pure _

variable [MonadLiftT (Except DecodeError) m] [MonadLiftT (Except DecodeError) n]

theorem functionAt_related [LinkageNames]
    (related : ∀ offset, relation.Related (containing? offset) (containing?' offset))
    (unit : CompileUnit) (rangeLists : Bytes) (address : UInt64)
    (lifted : relation.Related (monadLift (unit.subprogramAt? rangeLists address) : m (Option Nat))
      (monadLift (unit.subprogramAt? rangeLists address))) :
    relation.Related (functionAt containing? unit rangeLists address)
      (functionAt containing?' unit rangeLists address) := by
  apply relation.bind lifted
  intro index?
  cases index? with
  | none => exact relation.pure none
  | some index => exact functionName_related relation related unit index

end CompileUnit

namespace DebugImage

variable (relation : MonadRelation m n) [MonadLiftT (Except DecodeError) m]
  [MonadLiftT (Except DecodeError) n] {image : DebugImage} {fetch : Nat → m CompileUnit}
  {fetch' : Nat → n CompileUnit}

theorem containingWith_related [LawfulMonad m] [LawfulMonad n]
    (related : ∀ offset, relation.Related (fetch offset) (fetch' offset)) (offset : Nat)
    (lifted : relation.Related
      (monadLift (UnitHeader.containing? image.sections.info offset) : m (Option UnitHeader))
      (monadLift (UnitHeader.containing? image.sections.info offset))) :
    relation.Related (image.containingWith fetch offset) (image.containingWith fetch' offset) := by
  apply relation.bind lifted
  intro header?
  cases header? with
  | none => exact relation.pure none
  | some header => exact relation.map (related header.offset) some

theorem resolveWith_related [LinkageNames]
    (related : ∀ offset, relation.Related (fetch offset) (fetch' offset)) (address : UInt64)
    (relatedFunction : ∀ unit, relation.Related (image.functionAtWith fetch unit address)
      (image.functionAtWith fetch' unit address)) :
    relation.Related (image.resolveWith fetch address) (image.resolveWith fetch' address) := by
  unfold resolveWith
  split
  · exact relation.pure none
  · apply relation.bind (related _)
    intro unit
    split
    · exact relation.pure none
    · exact relation.bind (relatedFunction unit) fun _ => relation.pure _

end DebugImage

end Symbolication
