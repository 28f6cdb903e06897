import Symbolication.Decoder.Basic

/-!
Repetitions of a reading. Each round starts with a head that takes at least one byte, so every
repetition ends; a round then either adds an item or ends the list.
-/

namespace Symbolication.Decoder

variable {α β σ : Type}

/-- How a round of a repetition ends: with a new state, or for good. -/
inductive Round (σ : Type) where
  | again (state : σ)
  | finished
deriving DecidableEq, Repr

/-- Runs rounds from a state until one ends for good. The answer is the last state. -/
def runRounds (round : σ → Decoder (Round σ))
    (consumes : ∀ {state state' cursor next},
      (round state).run cursor = .ok (.again state', next) → next.left < cursor.left)
    (state : σ) (cursor : Cursor) : Except DecodeError (σ × Cursor) :=
  match _outcome : (round state).run cursor with
  | .error error => .error error
  | .ok (.finished, next) => .ok (state, next)
  | .ok (.again state', next) => runRounds round consumes state' next
termination_by cursor.left
decreasing_by exact consumes _outcome

theorem runRounds_eq (round : σ → Decoder (Round σ))
    (consumes : ∀ {state state' cursor next},
      (round state).run cursor = .ok (.again state', next) → next.left < cursor.left)
    (state : σ) (cursor : Cursor) :
    runRounds round consumes state cursor =
      match (round state).run cursor with
      | .error error => .error error
      | .ok (.finished, next) => .ok (state, next)
      | .ok (.again state', next) => runRounds round consumes state' next := by
  rw [runRounds]
  split <;> simp_all

theorem runRounds_reaches (round : σ → Decoder (Round σ))
    (consumes : ∀ {state state' cursor next},
      (round state).run cursor = .ok (.again state', next) → next.left < cursor.left)
    (state : σ) (cursor : Cursor) {final : σ} {next : Cursor}
    (outcome : runRounds round consumes state cursor = .ok (final, next)) :
    cursor.Reaches next := by
  fun_induction runRounds round consumes state cursor with
  | case1 => contradiction
  | case2 state cursor next' step =>
      cases outcome
      exact (round _).reaches step
  | case3 state cursor state' next' step induction =>
      exact ((round state).reaches step).trans (induction outcome)

def rounds (round : σ → Decoder (Round σ))
    (consumes : ∀ {state state' cursor next},
      (round state).run cursor = .ok (.again state', next) → next.left < cursor.left)
    (state : σ) : Decoder σ where
  run := runRounds round consumes state
  reaches := fun {cursor _ _} => runRounds_reaches round consumes state cursor

/-- A round that puts an item in front of those found before, or has none and ends them. -/
def Round.ofItem (found : List α) : Option α → Round (List α)
  | some value => again (value :: found)
  | none => finished

theorem ofItem_consumes {item : Decoder (Option α)}
    (consumes : ∀ {value cursor next},
      item.run cursor = .ok (some value, next) → next.left < cursor.left)
    {found found' : List α} {cursor next : Cursor}
    (outcome : (Round.ofItem found <$> item).run cursor = .ok (.again found', next)) :
    next.left < cursor.left := by
  rw [run_map] at outcome
  split at outcome
  · contradiction
  · rename_i value? next' step
    cases value? with
    | none => cases outcome
    | some value =>
        cases outcome
        exact consumes step

/-- Collects items until a round has none. -/
def items (item : Decoder (Option α))
    (consumes : ∀ {value cursor next},
      item.run cursor = .ok (some value, next) → next.left < cursor.left) :
    Decoder (List α) :=
  List.reverse <$> rounds (Round.ofItem · <$> item) (ofItem_consumes consumes) []

theorem runRounds_ofItem (item : Decoder (Option α))
    (consumes : ∀ {value cursor next},
      item.run cursor = .ok (some value, next) → next.left < cursor.left)
    (found : List α) (cursor : Cursor) :
    runRounds (Round.ofItem · <$> item) (ofItem_consumes consumes) found cursor =
      match runRounds (Round.ofItem · <$> item) (ofItem_consumes consumes) [] cursor with
      | .error error => .error error
      | .ok (values, next) => .ok (values ++ found, next) := by
  rw [runRounds_eq, runRounds_eq, run_map, run_map]
  cases step : item.run cursor with
  | error error => rfl
  | ok outcome =>
      obtain ⟨value?, next⟩ := outcome
      cases value? with
      | none => rfl
      | some value =>
          simp only [Round.ofItem]
          rw [runRounds_ofItem item consumes (value :: found) next,
            runRounds_ofItem item consumes [value] next]
          split <;> simp
termination_by cursor.left
decreasing_by all_goals exact consumes step

theorem run_items (item : Decoder (Option α))
    (consumes : ∀ {value cursor next},
      item.run cursor = .ok (some value, next) → next.left < cursor.left)
    (cursor : Cursor) :
    (items item consumes).run cursor =
      match item.run cursor with
      | .error error => .error error
      | .ok (none, next) => .ok ([], next)
      | .ok (some value, next) =>
          match (items item consumes).run next with
          | .error error => .error error
          | .ok (values, final) => .ok (value :: values, final) := by
  simp only [items, run_map, rounds]
  rw [runRounds_eq, run_map]
  cases item.run cursor with
  | error error => rfl
  | ok outcome =>
      obtain ⟨value?, next⟩ := outcome
      cases value? with
      | none => rfl
      | some value =>
          simp only [Round.ofItem]
          rw [runRounds_ofItem item consumes [value] next]
          cases runRounds (Round.ofItem · <$> item) (ofItem_consumes consumes) [] next with
          | error error => rfl
          | ok rest => simp

/-- Items that each begin with a head, until the body of one ends the list. -/
def itemsUntil (head : Decoder β) (consumes : head.Consumes) (body : β → Decoder (Option α)) :
    Decoder (List α) :=
  items (head >>= body) (consumes.bind body _ _ _)

/-- One item if bytes are left. -/
def itemIfLeft (head : Decoder β) (body : β → Decoder (Option α)) : Decoder (Option α) := do
  if ← isFinished then pure none else head >>= body

theorem itemIfLeft_consumes {head : Decoder β} (consumes : head.Consumes)
    {body : β → Decoder (Option α)} {value : α} {cursor next : Cursor}
    (outcome : (itemIfLeft head body).run cursor = .ok (some value, next)) :
    next.left < cursor.left := by
  simp only [itemIfLeft, run_bind (isFinished), run_isFinished] at outcome
  split at outcome
  · cases outcome
  · exact consumes.bind body _ _ _ outcome

/-- Items that each begin with a head, until nothing is left or the body of one ends the list. -/
def itemsWhileLeft (head : Decoder β) (consumes : head.Consumes)
    (body : β → Decoder (Option α)) : Decoder (List α) :=
  items (itemIfLeft head body) (itemIfLeft_consumes consumes)

/-- Rounds that each begin with a head, until nothing is left or the body of one is the last. -/
def roundIfLeft (head : Decoder β) (body : σ → β → Decoder (Round σ)) (state : σ) :
    Decoder (Round σ) := do
  if ← isFinished then pure .finished else head >>= body state

theorem roundIfLeft_consumes {head : Decoder β} (consumes : head.Consumes)
    {body : σ → β → Decoder (Round σ)} {state state' : σ} {cursor next : Cursor}
    (outcome : (roundIfLeft head body state).run cursor = .ok (.again state', next)) :
    next.left < cursor.left := by
  simp only [roundIfLeft, run_bind (isFinished), run_isFinished] at outcome
  split at outcome
  · cases outcome
  · exact consumes.bind (body state) _ _ _ outcome

def roundsWhileLeft (head : Decoder β) (consumes : head.Consumes)
    (body : σ → β → Decoder (Round σ)) (state : σ) : Decoder σ :=
  rounds (roundIfLeft head body) (roundIfLeft_consumes consumes) state

end Symbolication.Decoder
