import Symbolication.Proofs.Checked.Operation

/-!
A program with checked operations settles on a result when none of its checks fails and it ends as
the result does. Sequences settle as their steps do.
-/

namespace Symbolication

/-- The program does not stop, and ends as the result does. -/
def Settles {ε α α' : Type} (related : α' → α → Prop) (program : ExceptT ε Checked α') :
    Except ε α → Prop
  | .error error => program.run = .ok (.error error)
  | .ok value => ∃ value', program.run = .ok (.ok value') ∧ related value' value

namespace Settles

variable {ε α α' β β' : Type} {related : α' → α → Prop} {related' : β' → β → Prop}
  {program : ExceptT ε Checked α'} {result : Except ε α}

theorem eq_iff {program : ExceptT ε Checked α} :
    Settles Eq program result ↔ program.run = .ok result := by
  cases result with
  | error error => rfl
  | ok value => simp [Settles]

protected theorem pure {value' : α'} {value : α} (same : related value' value) :
    Settles related (pure value' : ExceptT ε Checked α') (.ok value) :=
  ⟨value', rfl, same⟩

protected theorem throw (error : ε) :
    Settles related (throw error : ExceptT ε Checked α') (.error error) := rfl

/-- A result that is found without checked operations. -/
theorem ofExcept {source result : Except ε α} (outcome : source = result) :
    Settles Eq (liftExcept source : ExceptT ε Checked α) result := by
  rw [← outcome]
  cases source with
  | error error => exact .throw error
  | ok value => exact .pure rfl

theorem bind_error {continuation' : α' → ExceptT ε Checked β'} {error : ε}
    (settles : Settles related program (.error error)) :
    Settles related' (program >>= continuation') (.error error) := by
  change (program >>= continuation').run = _
  rw [ExceptT.run_bind, show program.run = .ok (.error error) from settles]
  rfl

theorem bind_ok {continuation' : α' → ExceptT ε Checked β'} {value : α} {result : Except ε β}
    (settles : Settles related program (.ok value))
    (settlesNext : ∀ value', related value' value →
      Settles related' (continuation' value') result) :
    Settles related' (program >>= continuation') result := by
  obtain ⟨value', found, same⟩ := settles
  have run : program >>= continuation' = continuation' value' := by
    apply ExceptT.ext
    rw [ExceptT.run_bind, found]
    rfl
  rw [run]
  exact settlesNext value' same

protected theorem bind {continuation' : α' → ExceptT ε Checked β'}
    {continuation : α → Except ε β} (settles : Settles related program result)
    (settlesNext : ∀ value' value, result = .ok value → related value' value →
      Settles related' (continuation' value') (continuation value)) :
    Settles related' (program >>= continuation') (result >>= continuation) := by
  cases result with
  | error error => exact settles.bind_error
  | ok value => exact settles.bind_ok fun value' => settlesNext value' value rfl

theorem adapt {ε' : Type} (settles : Settles related program result) (function : ε → ε') :
    Settles related (program.adapt function) (result.mapError function) := by
  cases result with
  | error error =>
      change Except.mapError function <$> program.run = _
      rw [show program.run = .ok (.error error) from settles]
      rfl
  | ok value =>
      obtain ⟨value', found, same⟩ := settles
      refine ⟨value', ?_, same⟩
      change Except.mapError function <$> program.run = _
      rw [found]
      rfl

protected theorem map {function' : α' → β'} {function : α → β}
    (settles : Settles related program result)
    (same : ∀ value' value, related value' value → related' (function' value') (function value)) :
    Settles related' (function' <$> program) (function <$> result) := by
  rw [← bind_pure_comp, ← bind_pure_comp]
  exact settles.bind fun _ _ _ found => .pure (same _ _ found)

theorem map_eq {program : ExceptT ε Checked α} (settles : Settles Eq program result)
    (function : α → β) : Settles Eq (function <$> program) (function <$> result) :=
  settles.map fun _ _ same => congrArg function same

theorem map_left {related' : β' → α → Prop} {function' : α' → β'}
    (settles : Settles related program result)
    (same : ∀ value' value, related value' value → related' (function' value') value) :
    Settles related' (function' <$> program) result := by
  rw [← bind_pure_comp]
  cases result with
  | error error => exact settles.bind_error
  | ok value => exact settles.bind_ok fun value' found => .pure (same value' value found)

theorem mapM {γ : Type} {function' : γ → ExceptT ε Checked α} {function : γ → Except ε α}
    (settles : ∀ item, Settles Eq (function' item) (function item)) (items : List γ) :
    Settles Eq (items.mapM function') (items.mapM function) := by
  induction items with
  | nil => exact .pure rfl
  | cons item items induction =>
      rw [List.mapM_cons, List.mapM_cons]
      apply (settles item).bind
      rintro value _ _ rfl
      apply induction.bind
      rintro values _ _ rfl
      exact .pure rfl

/-- An operation in range is the value that it has. -/
theorem checked {operation : Checked β'} {value : β'}
    {continuation : β' → ExceptT ε Checked α'} (inRange : operation = .ok value)
    (settles : Settles related (continuation value) result) :
    Settles related ((liftM operation : ExceptT ε Checked β') >>= continuation)
      result := by
  rw [inRange]
  exact settles

end Settles

end Symbolication
