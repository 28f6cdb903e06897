import Symbolication.Proofs.Checked.Following

/-!
Repetitions of readings follow those of decoders. Each round takes a byte, so the rounds that a
window has bytes for, and one, are enough.
-/

namespace Symbolication

/-- Rounds that end alike, with related states. -/
def Decoder.Round.Related {σ σ' : Type} (related : σ' → σ → Prop) :
    Decoder.Round σ' → Decoder.Round σ → Prop
  | .again state', .again state => related state' state
  | .finished, .finished => True
  | _, _ => False

namespace Follows

variable {α β σ σ' : Type} {floor : Nat} {related : σ' → σ → Prop}

theorem runRounds {round' : σ' → Reading (Decoder.Round σ')} {round : σ → Decoder (Decoder.Round σ)}
    (consumes : ∀ {state state' cursor next},
      (round state).run cursor = .ok (.again state', next) → next.left < cursor.left)
    (follows : ∀ state' state, related state' state →
      Follows floor (Decoder.Round.Related related) (round' state') (round state))
    {count : Nat} {state' : σ'} {state : σ} (same : related state' state) {reader : Reader}
    {cursor : Cursor} (stands : reader.Stands cursor) (above : floor ≤ cursor.offset)
    (enough : cursor.left < count) :
    Settles (fun found' found => related found'.1 found.1 ∧ found'.2.Stands found.2)
      ((Reading.runRounds round' count state').result reader)
      (Decoder.runRounds round consumes state cursor) := by
  -- Each round leaves fewer bytes, so the bytes are used up before the rounds are.
  induction count generalizing state' state reader cursor with
  | zero => exact absurd enough (Nat.not_lt_zero _)
  | succ count induction =>
      unfold Reading.runRounds
      rw [Decoder.runRounds_eq, Reading.result_bind]
      have settles := follows state' state same reader cursor stands above
      split
      · rename_i error outcome
        rw [outcome] at settles
        exact settles.bind_error
      · rename_i next outcome
        rw [outcome] at settles
        apply settles.bind_ok
        rintro ⟨_ | _, reader'⟩ ⟨alike, stands'⟩
        · exact alike.elim
        · exact .pure ⟨same, stands'⟩
      · rename_i next outcome
        rw [outcome] at settles
        apply settles.bind_ok
        rintro ⟨later' | _, reader'⟩ ⟨alike, stands'⟩
        · have fewer := consumes outcome
          have further := (Decoder.reaches _ outcome).offset_le
          exact induction alike stands' (Nat.le_trans above further)
            (Nat.lt_of_lt_of_le fewer (Nat.le_of_lt_succ enough))
        · exact alike.elim

theorem rounds {round' : σ' → Reading (Decoder.Round σ')} {round : σ → Decoder (Decoder.Round σ)}
    (consumes : ∀ {state state' cursor next},
      (round state).run cursor = .ok (.again state', next) → next.left < cursor.left)
    (follows : ∀ state' state, related state' state →
      Follows floor (Decoder.Round.Related related) (round' state') (round state))
    {state' : σ'} {state : σ} (same : related state' state) :
    Follows floor related (Reading.rounds round' state') (Decoder.rounds round consumes state) := by
  intro reader cursor stands above
  have left := stands.left_eq
  have enough : cursor.left < reader.data.length + 1 := by omega
  exact runRounds consumes follows same stands above enough

/-- Rounds whose state tells the items found so far, as a decoder finds them. -/
theorem items_state {round : σ' → Reading (Decoder.Round σ')} {item : Decoder (Option α)}
    (consumes : ∀ {value cursor next},
      item.run cursor = .ok (some value, next) → next.left < cursor.left)
    {after : List α → σ'}
    (follows : ∀ found, Follows floor
      (Decoder.Round.Related fun state (found : List α) => state = after found.reverse)
        (round (after found.reverse)) (Decoder.Round.ofItem found <$> item)) :
    Follows floor (fun state found => state = after found) (Reading.rounds round (after []))
      (Decoder.items item consumes) := by
  have states : Follows floor (fun state (found : List α) => state = after found.reverse)
      (Reading.rounds round (after []))
      (Decoder.rounds (Decoder.Round.ofItem · <$> item) (Decoder.ofItem_consumes consumes) []) :=
    rounds (Decoder.ofItem_consumes consumes) (fun _ found same => same ▸ follows found) rfl
  exact states.map_right fun _ _ same => same

theorem items {item' : Reading (Option α)} {item : Decoder (Option α)}
    (consumes : ∀ {value cursor next},
      item.run cursor = .ok (some value, next) → next.left < cursor.left)
    (follows : Follows floor Eq item' item) :
    Follows floor Eq (Reading.items item') (Decoder.items item consumes) := by
  apply map_eq
  refine rounds (Decoder.ofItem_consumes consumes) ?_ rfl
  rintro _ found rfl
  refine follows.map ?_
  rintro value? _ rfl
  cases value? with
  | none => exact trivial
  | some value => exact rfl

theorem itemsUntil {head' : Reading β} {head : Decoder β} (consumes : head.Consumes)
    {body' : β → Reading (Option α)} {body : β → Decoder (Option α)}
    (followsHead : Follows floor Eq head' head)
    (followsBody : ∀ value, Follows floor Eq (body' value) (body value)) :
    Follows floor Eq (Reading.itemsUntil head' body') (Decoder.itemsUntil head consumes body) :=
  items (consumes.bind body _ _ _) (followsHead.bind_eq followsBody)

theorem ifLeft {γ γ' : Type} {related : γ' → γ → Prop} {last' : γ'} {last : γ}
    (same : related last' last) {reading : Reading γ'} {decoder : Decoder γ}
    (follows : Follows floor related reading decoder) :
    Follows floor related (do if ← Reading.isFinished then pure last' else reading)
      (do if ← Decoder.isFinished then pure last else decoder) := by
  apply Follows.isFinished.bind_eq
  intro finished
  cases finished with
  | true => exact .pure same
  | false => exact follows

theorem itemsWhileLeft {β' : Type} {alike : β' → β → Prop} {head' : Reading β'}
    {head : Decoder β} (consumes : head.Consumes) {body' : β' → Reading (Option α)}
    {body : β → Decoder (Option α)} (followsHead : Follows floor alike head' head)
    (followsBody : ∀ value' value, alike value' value →
      Follows floor Eq (body' value') (body value)) :
    Follows floor Eq (Reading.itemsWhileLeft head' body')
      (Decoder.itemsWhileLeft head consumes body) :=
  items (Decoder.itemIfLeft_consumes consumes) (ifLeft rfl (followsHead.bind followsBody))

theorem roundsWhileLeft {head' : Reading β} {head : Decoder β} (consumes : head.Consumes)
    {body' : σ → β → Reading (Decoder.Round σ)} {body : σ → β → Decoder (Decoder.Round σ)}
    (followsHead : Follows floor Eq head' head)
    (followsBody : ∀ state value, Follows floor (Decoder.Round.Related Eq) (body' state value)
      (body state value)) (state : σ) :
    Follows floor Eq (Reading.roundsWhileLeft head' body' state)
      (Decoder.roundsWhileLeft head consumes body state) := by
  refine rounds (Decoder.roundIfLeft_consumes consumes) ?_ rfl
  rintro state _ rfl
  exact ifLeft trivial (followsHead.bind_eq (followsBody state))

theorem mapM {γ : Type} {reading : γ → Reading α} {decoder : γ → Decoder α}
    (follows : ∀ row, Follows floor Eq (reading row) (decoder row)) (rows : List γ) :
    Follows floor Eq (rows.mapM reading) (rows.mapM decoder) := by
  induction rows with
  | nil => exact .pure rfl
  | cons row rows induction =>
      rw [List.mapM_cons, List.mapM_cons]
      exact (follows row).bind_eq fun _ => induction.bind_eq fun _ => .pure rfl

end Follows

end Symbolication
