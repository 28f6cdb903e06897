import Symbolication.Proofs.Decoder.Reads

/-!
What repetitions make of given bytes: one item or round in front of the others, and rows that are
written item by item.
-/

namespace Symbolication.Decoder

variable {α β γ σ : Type} {cursor : Cursor} {bytes first second suffix : Bytes}

theorem isFinished_reads_false (left : bytes ++ suffix ≠ [])
    (ahead : cursor.rest = bytes ++ suffix) :
    cursor.isFinished = false := by
  unfold Cursor.isFinished
  rw [ahead, List.isEmpty_eq_false_iff]
  exact left

section Items

variable {item : Decoder (Option α)}
  {consumes : ∀ {value cursor next},
    item.run cursor = .ok (some value, next) → next.left < cursor.left}

theorem items_nil_reads (readsEnd : item.Reads cursor bytes suffix none) :
    (items item consumes).Reads cursor bytes suffix [] := by
  intro ahead
  rw [run_items, readsEnd.run ahead]

theorem items_cons_reads {value : α} {values : List α}
    (readsFirst : item.Reads cursor first (second ++ suffix) (some value))
    (readsOthers : (items item consumes).Reads (cursor.after first (second ++ suffix)) second suffix
      values) :
    (items item consumes).Reads cursor (first ++ second) suffix (value :: values) := by
  intro ahead
  rw [run_items, readsFirst.run (by rw [ahead, List.append_assoc])]
  dsimp only
  rw [readsOthers.run (Cursor.rest_after _ _ _), Cursor.after_after]

/-- Induction along the items that a repetition has found, from the last one back. -/
theorem items_induction {motive : Cursor → List α → Prop}
    (finish : ∀ {cursor next}, item.run cursor = .ok (none, next) → motive cursor [])
    (another : ∀ {cursor next value values}, item.run cursor = .ok (some value, next) →
      motive next values → motive cursor (value :: values))
    {cursor next : Cursor} {values : List α}
    (outcome : (items item consumes).run cursor = .ok (values, next)) : motive cursor values := by
  rw [run_items] at outcome
  cases step : item.run cursor with
  | error error =>
      rw [step] at outcome
      cases outcome
  | ok result =>
      obtain ⟨value?, middle⟩ := result
      rw [step] at outcome
      cases value? with
      | none =>
          cases outcome
          exact finish step
      | some value =>
          dsimp only at outcome
          cases others : (items item consumes).run middle with
          | error error =>
              rw [others] at outcome
              cases outcome
          | ok result =>
              obtain ⟨values', final⟩ := result
              rw [others] at outcome
              cases outcome
              exact another step (items_induction finish another others)
termination_by cursor.left
decreasing_by exact consumes step

variable (consumes) in
/-- A row written item by item, in front of bytes that hold no further item. -/
theorem items_flatMap_reads {write : α → Bytes} {ending : Bytes} {rows : List α}
    (readsItem : ∀ row ∈ rows, ∀ cursor behind,
      item.Reads cursor (write row) (behind ++ ending ++ suffix) (some row))
    (readsEnd : ∀ cursor, item.Reads cursor ending suffix none) :
    (items item consumes).Reads cursor (rows.flatMap write ++ ending) suffix rows := by
  induction rows generalizing cursor with
  | nil => exact items_nil_reads (readsEnd cursor)
  | cons row rows induction =>
      rw [List.flatMap_cons, List.append_assoc]
      apply items_cons_reads
      · exact readsItem row List.mem_cons_self cursor (rows.flatMap write)
      · exact induction fun other member => readsItem other (List.mem_cons_of_mem _ member)

end Items

theorem itemsUntil_flatMap_reads {head : Decoder β} {consumes : head.Consumes}
    {body : β → Decoder (Option α)} {write : α → Bytes} {ending : Bytes} {rows : List α}
    (readsItem : ∀ row ∈ rows, ∀ cursor behind,
      (head >>= body).Reads cursor (write row) (behind ++ ending ++ suffix) (some row))
    (readsEnd : ∀ cursor, (head >>= body).Reads cursor ending suffix none) :
    (itemsUntil head consumes body).Reads cursor (rows.flatMap write ++ ending) suffix rows := by
  unfold itemsUntil
  exact items_flatMap_reads (consumes.bind body _ _ _) readsItem readsEnd

theorem run_itemIfLeft (head : Decoder β) (body : β → Decoder (Option α)) (cursor : Cursor) :
    (itemIfLeft head body).run cursor =
      if cursor.isFinished then .ok (none, cursor) else (head >>= body).run cursor := by
  unfold itemIfLeft
  rw [run_bind, run_isFinished]
  dsimp only
  split <;> rfl

theorem itemIfLeft_reads {head : Decoder β} {body : β → Decoder (Option α)} {value? : Option α}
    (left : bytes ++ suffix ≠ []) (reads : (head >>= body).Reads cursor bytes suffix value?) :
    (itemIfLeft head body).Reads cursor bytes suffix value? := by
  intro ahead
  rw [run_itemIfLeft, isFinished_reads_false left ahead]
  exact reads.run ahead

theorem itemIfLeft_finished {head : Decoder β} {body : β → Decoder (Option α)} :
    (itemIfLeft head body).Reads cursor [] [] none := by
  intro ahead
  have finished : cursor.isFinished = true := by
    unfold Cursor.isFinished
    rw [ahead]
    rfl
  rw [run_itemIfLeft, finished]
  exact pure_reads none ahead

/-- A row in which every item is written with some bytes, whatever ends it. -/
theorem itemsWhileLeft_flatMap_reads {head : Decoder β} {consumes : head.Consumes}
    {body : β → Decoder (Option α)} {write : α → Bytes} {ending : Bytes} {rows : List α}
    (nonempty : ∀ row, write row ≠ [])
    (readsItem : ∀ row ∈ rows, ∀ cursor behind,
      (head >>= body).Reads cursor (write row) (behind ++ ending ++ suffix) (some row))
    (readsEnd : ∀ cursor, (itemIfLeft head body).Reads cursor ending suffix none) :
    (itemsWhileLeft head consumes body).Reads cursor (rows.flatMap write ++ ending) suffix
      rows := by
  unfold itemsWhileLeft
  apply items_flatMap_reads (itemIfLeft_consumes consumes) _ readsEnd
  intro row member cursor behind
  apply itemIfLeft_reads
  · exact List.append_ne_nil_of_left_ne_nil (nonempty row) _
  · exact readsItem row member cursor behind

section Rounds

variable {head : Decoder β} {consumes : head.Consumes} {body : σ → β → Decoder (Round σ)}
  {state : σ}

theorem run_roundsWhileLeft_nil (nothing : cursor.rest = []) :
    (roundsWhileLeft head consumes body state).run cursor = .ok (state, cursor) := by
  have finished : cursor.isFinished = true := by
    unfold Cursor.isFinished
    rw [nothing]
    rfl
  change runRounds (roundIfLeft head body) _ state cursor = _
  rw [runRounds_eq, roundIfLeft, run_bind, run_isFinished, finished]
  rfl

theorem run_roundsWhileLeft (left : cursor.rest ≠ []) :
    (roundsWhileLeft head consumes body state).run cursor =
      match (head >>= body state).run cursor with
      | .error error => .error error
      | .ok (.finished, next) => .ok (state, next)
      | .ok (.again state', next) => (roundsWhileLeft head consumes body state').run next := by
  have unfinished : cursor.isFinished = false := by
    unfold Cursor.isFinished
    rwa [List.isEmpty_eq_false_iff]
  change runRounds (roundIfLeft head body) _ state cursor = _
  rw [runRounds_eq, roundIfLeft, run_bind, run_isFinished, unfinished]
  rfl

end Rounds

theorem mapM_cons_reads {reading : γ → Decoder α} {row : γ} {rows : List γ} {value : α}
    {values : List α} (readsFirst : (reading row).Reads cursor first (second ++ suffix) value)
    (readsOthers : (rows.mapM reading).Reads (cursor.after first (second ++ suffix)) second suffix
      values) :
    ((row :: rows).mapM reading).Reads cursor (first ++ second) suffix (value :: values) := by
  rw [List.mapM_cons]
  exact readsFirst.bind (readsOthers.bind_last (pure_reads _))

/-- Where the readings of the first rows lead to, the next row is read. -/
theorem mapM_split {reading : γ → Decoder α} {front others : List γ} {row : γ}
    {earlier values : List α} {place next : Cursor}
    (outcome : ((front ++ row :: others).mapM reading).run cursor = .ok (values, next))
    (inFront : (front.mapM reading).run cursor = .ok (earlier, place)) :
    ∃ value middle later, (reading row).run place = .ok (value, middle) ∧
      values = earlier ++ value :: later := by
  rw [List.mapM_append, run_bind, inFront] at outcome
  obtain ⟨others', _, outcome, finish⟩ := run_bind_eq_ok.mp outcome
  rw [List.mapM_cons] at outcome
  obtain ⟨value, middle, reads, outcome⟩ := run_bind_eq_ok.mp outcome
  obtain ⟨later, _, _, finishOthers⟩ := run_bind_eq_ok.mp outcome
  cases finishOthers
  cases finish
  exact ⟨value, middle, later, reads, rfl⟩

end Symbolication.Decoder
