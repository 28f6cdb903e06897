import Symbolication.Proofs.Checked.Reading
import Symbolication.Proofs.Checked.Settling
import Symbolication.Proofs.Reader.Performing

/-!
A reading follows a decoder: from every reader that stands where a cursor does, it does not stop,
and it fails as the decoder fails or finds what the decoder finds and stands where the decoder does.
Where it leaves the reader when it fails is not asked, so that sequences and repetitions of readings
follow those of the decoders, and each reading follows for what is its own.
-/

namespace Symbolication

namespace Reader

/-- A reader for the rest of a section stands at every cursor that has the same rest ahead. -/
theorem startAt_stands {source : DebugSection} {bytes : Bytes} {offset : Nat} {cursor : Cursor}
    (same : cursor.source = source) (place : cursor.offset = offset)
    (rest : cursor.rest = bytes.drop offset) (inside : offset ≤ bytes.length) :
    Settles Stands (startAt source bytes offset) (.ok cursor) := by
  unfold startAt
  rw [if_neg (Nat.not_lt.mpr inside)]
  apply Settles.checked (Checked.slice_to_end inside)
  exact .pure ⟨same.symm, place.symm, Nat.zero_le _, rest.symm⟩

theorem startAt_settles (source : DebugSection) (bytes : Bytes) (offset : Nat) :
    Settles Stands (startAt source bytes offset) (Cursor.startAt source bytes offset) := by
  unfold Cursor.startAt
  by_cases inside : offset ≤ bytes.length
  · rw [if_pos inside]
    exact startAt_stands rfl rfl rfl inside
  · unfold startAt
    rw [if_pos (Nat.lt_of_not_le inside), if_neg inside]
    exact .throw _

end Reader

theorem Decoder.run_bind_eq {α β : Type} (decoder : Decoder α) (continuation : α → Decoder β)
    (cursor : Cursor) :
    (decoder >>= continuation).run cursor =
      decoder.run cursor >>= fun found => (continuation found.1).run found.2 := by
  rw [Decoder.run_bind]
  cases decoder.run cursor <;> rfl

/-- The reading does what the decoder does, at least from `floor` on. -/
def Follows {α α' : Type} (floor : Nat) (related : α' → α → Prop) (reading : Reading α')
    (decoder : Decoder α) : Prop :=
  ∀ (reader : Reader) (cursor : Cursor), reader.Stands cursor → floor ≤ cursor.offset →
    Settles (fun found' found => related found'.1 found.1 ∧ found'.2.Stands found.2)
      (reading.result reader) (decoder.run cursor)

/-- A program that does what a decoder does also follows it. -/
theorem Reading.Performs.follows {α : Type} {floor : Nat} {reading : Reading α}
    {decoder : Decoder α} (performs : reading.Performs decoder) :
    Follows floor Eq reading decoder := by
  intro reader cursor stands _
  unfold Reading.result
  rw [performs reader cursor stands]
  cases outcome : decoder.run cursor with
  | error error =>
      rw [Decoder.perform_error outcome]
      exact .throw error
  | ok found =>
      obtain ⟨value, next⟩ := found
      obtain ⟨taken, passes⟩ := (decoder.reaches outcome).passes
      rw [Decoder.perform_ok outcome passes]
      exact .pure ⟨rfl, stands.advance passes⟩

namespace Follows

variable {α α' β β' σ σ' : Type} {floor : Nat} {related : α' → α → Prop}
  {related' : β' → β → Prop} {reading : Reading α'} {decoder : Decoder α}

protected theorem pure {value' : α'} {value : α} (same : related value' value) :
    Follows floor related (pure value') (pure value) :=
  fun _ _ stands _ => .pure ⟨same, stands⟩

protected theorem bind {continuation' : α' → Reading β'} {continuation : α → Decoder β}
    (follows : Follows floor related reading decoder)
    (followsNext : ∀ value' value, related value' value →
      Follows floor related' (continuation' value') (continuation value)) :
    Follows floor related' (reading >>= continuation') (decoder >>= continuation) := by
  intro reader cursor stands above
  rw [Decoder.run_bind_eq, Reading.result_bind]
  apply (follows reader cursor stands above).bind
  rintro ⟨value', reader'⟩ ⟨value, next⟩ outcome ⟨same, stands'⟩
  exact followsNext value' value same reader' next stands'
    (Nat.le_trans above (decoder.reaches outcome).offset_le)

theorem bind_eq {reading : Reading α} {continuation' : α → Reading β'}
    {continuation : α → Decoder β} (follows : Follows floor Eq reading decoder)
    (followsNext : ∀ value, Follows floor related' (continuation' value) (continuation value)) :
    Follows floor related' (reading >>= continuation') (decoder >>= continuation) :=
  follows.bind fun value' _ same => same ▸ followsNext value'

protected theorem map {function' : α' → β'} {function : α → β}
    (follows : Follows floor related reading decoder)
    (same : ∀ value' value, related value' value → related' (function' value') (function value)) :
    Follows floor related' (function' <$> reading) (function <$> decoder) := by
  rw [← bind_pure_comp, ← bind_pure_comp]
  exact follows.bind fun _ _ related => .pure (same _ _ related)

theorem map_eq {reading : Reading α} (follows : Follows floor Eq reading decoder)
    (function : α → β) : Follows floor Eq (function <$> reading) (function <$> decoder) :=
  follows.map fun _ _ same => congrArg function same

theorem settles_checked {operation : Checked β'} {value : β'} {continuation : β' → Reading α'}
    {related : α' × Reader → α × Cursor → Prop} {reader : Reader}
    {result : Except DecodeError (α × Cursor)} (inRange : operation = .ok value)
    (settles : Settles related ((continuation value).result reader) result) :
    Settles related (((liftM operation : Reading β') >>= continuation).result reader) result := by
  rw [inRange]
  exact settles

/-- An operation in range is the value that it has. -/
theorem checked {operation : Checked β'} {value : β'} {continuation : β' → Reading α'}
    (inRange : operation = .ok value)
    (follows : Follows floor related (continuation value) decoder) :
    Follows floor related ((liftM operation : Reading β') >>= continuation) decoder :=
  fun reader cursor stands above => settles_checked inRange (follows reader cursor stands above)

theorem map_right {related' : α' → β → Prop} {function : α → β}
    (follows : Follows floor related reading decoder)
    (same : ∀ value' value, related value' value → related' value' (function value)) :
    Follows floor related' reading (function <$> decoder) := by
  rw [← bind_pure reading, ← bind_pure_comp]
  exact follows.bind fun _ _ related => .pure (same _ _ related)

/-- What is done to a value that was found may be left out. -/
theorem of_map {related' : α' → β → Prop} {function : β → α} {decoder : Decoder β}
    (follows : Follows floor related reading (function <$> decoder))
    (same : ∀ value' value, related value' (function value) → related' value' value) :
    Follows floor related' reading decoder := by
  intro reader cursor stands above
  have settles := follows reader cursor stands above
  rw [Decoder.run_map] at settles
  cases outcome : decoder.run cursor with
  | error error =>
      rw [outcome] at settles
      exact settles
  | ok found =>
      rw [outcome] at settles
      obtain ⟨found', finds, related, standsNext⟩ := settles
      exact ⟨found', finds, same _ _ related, standsNext⟩

/-- What holds of every value that the decoder finds. -/
theorem of_run {holds : α → Prop} (follows : Follows floor related reading decoder)
    (found : ∀ {cursor next : Cursor} {value : α},
      decoder.run cursor = .ok (value, next) → holds value) :
    Follows floor (fun value' value => related value' value ∧ holds value) reading decoder := by
  intro reader cursor stands above
  have settles := follows reader cursor stands above
  cases outcome : decoder.run cursor with
  | error error =>
      rw [outcome] at settles
      exact settles
  | ok result =>
      rw [outcome] at settles
      obtain ⟨found', finds, related, standsNext⟩ := settles
      exact ⟨found', finds, ⟨related, found outcome⟩, standsNext⟩

protected theorem ite {condition' condition : Prop} [Decidable condition'] [Decidable condition]
    {otherwise' : Reading α'} {otherwise : Decoder α} (same : condition' ↔ condition)
    (holds : condition → Follows floor related reading decoder)
    (fails : ¬condition → Follows floor related otherwise' otherwise) :
    Follows floor related (if condition' then reading else otherwise')
      (if condition then decoder else otherwise) := by
  by_cases outcome : condition
  · rw [if_pos outcome, if_pos (same.mpr outcome)]
    exact holds outcome
  · rw [if_neg outcome, if_neg fun holds' => outcome (same.mp holds')]
    exact fails outcome

/-- A field that is read under a condition, and has a fixed value otherwise. -/
theorem bind_if {condition : Prop} [Decidable condition] {reading : Reading α} {fixed : α}
    {continuation' : α → Reading β'} {continuation : α → Decoder β}
    (follows : Follows floor Eq reading decoder)
    (followsNext : ∀ value, Follows floor related' (continuation' value) (continuation value)) :
    Follows floor related'
      (if condition then reading >>= continuation' else pure fixed >>= continuation')
      (if condition then decoder >>= continuation else pure fixed >>= continuation) := by
  split
  · exact follows.bind_eq followsNext
  · rw [pure_bind, pure_bind]
    exact followsNext fixed

/-- The place where a reading begins bounds all that it finds. -/
theorem offset_bind {continuation' : Nat → Reading α'} {continuation : Nat → Decoder α}
    (follows : ∀ start, floor ≤ start →
      Follows start related (continuation' start) (continuation start)) :
    Follows floor related (Reading.offset >>= continuation') (Decoder.offset >>= continuation) := by
  intro reader cursor stands above
  change Settles _ ((continuation' reader.offset).result reader)
    ((continuation cursor.offset).run cursor)
  rw [stands.offset]
  exact follows cursor.offset above reader cursor stands (Nat.le_refl _)

protected theorem offset : Follows floor Eq Reading.offset Decoder.offset :=
  fun _ _ stands _ => .pure ⟨stands.offset, stands⟩

/-- The place behind the window. A decoder finds it from where it stands and what is left. -/
theorem stop_bind {continuation' : Nat → Reading α'} {continuation : Nat → Nat → Decoder α}
    (follows : ∀ position left,
      Follows floor related (continuation' (position + left)) (continuation position left)) :
    Follows floor related (Reading.stop >>= continuation')
      (Decoder.offset >>= fun position => Decoder.left >>= continuation position) := by
  intro reader cursor stands above
  change Settles _ ((continuation' reader.stop).result reader)
    ((continuation cursor.offset cursor.left).run cursor)
  rw [stands.stop_eq]
  exact follows cursor.offset cursor.left reader cursor stands above

protected theorem isFinished : Follows floor Eq Reading.isFinished Decoder.isFinished :=
  fun _ _ stands _ => .pure ⟨stands.isFinished_eq, stands⟩

/-- The place where a reading stands, kept to be read from later. -/
protected theorem cursor : Follows floor Reader.Stands (get : Reading Reader) Decoder.cursor :=
  fun _ _ stands _ => .pure ⟨stands, stands⟩

theorem failAt (offset : Nat) (fault : DecodeFault) :
    Follows floor related (Reading.failAt offset fault) (Decoder.failAt offset fault) := by
  intro reader cursor stands _
  change Settles _ (throw (DecodeError.mk reader.source offset fault)) (.error _)
  rw [stands.source]
  exact .throw _

theorem count (start : Nat) (number : UInt64) :
    Follows floor Eq (Reading.count start number) (Decoder.count start number) := by
  unfold Reading.count Decoder.count
  cases Bytes.count? number with
  | none => exact failAt _ _
  | some count => exact .pure rfl

theorem window (length : Nat) :
    Follows floor Reader.Stands (Reading.window length) (Decoder.window length) := by
  apply (Reading.window_performs length).follows.of_map
  rintro _ window rfl
  exact Reader.stands_ofWindow window

theorem take_counts (count : Nat) :
    Follows floor (fun bytes' bytes => bytes' = bytes ∧ bytes.length = count) (Reading.take count)
      (Decoder.take count) :=
  (Reading.take_performs count).follows.of_run fun outcome => (Decoder.take_of_run outcome).1

/-- A program that does not move the reader. -/
theorem lift {program : ExceptT DecodeError Checked α'} {result : Except DecodeError α}
    (settles : Settles related program result) :
    Follows floor related (Checked.stateless program) (Decoder.lift result) := by
  intro reader cursor stands _
  have run : (Decoder.lift result).run cursor = result >>= fun value => .ok (value, cursor) := by
    cases result <;> rfl
  rw [run, Reading.result_stateless]
  exact settles.bind fun _ _ _ found => .pure ⟨found, stands⟩

theorem within {window : Reader} {window' : Cursor} (stands : window.Stands window')
    (follows : Follows 0 related reading decoder) :
    Follows floor related (Reading.within window reading) (Decoder.within window' decoder) := by
  apply lift
  change Settles related ((·.1) <$> reading.result window)
    (Except.map (·.1) (decoder.run window'))
  exact (follows window window' stands (Nat.zero_le _)).map fun _ _ found => found.1

theorem runAt (follows : Follows 0 related reading decoder) (source : DebugSection) (bytes : Bytes)
    (offset : Nat) :
    Settles related (reading.runAt source bytes offset) (decoder.runAt source bytes offset) := by
  apply (Reader.startAt_settles source bytes offset).bind
  intro reader cursor _ stands
  exact (follows reader cursor stands (Nat.zero_le _)).map fun _ _ found => found.1

theorem located {reading : Reading α} (follows : Follows floor Eq reading decoder) :
    Follows floor Eq (Reading.located reading) decoder.located :=
  Follows.offset.bind_eq fun _ => follows.bind_eq fun _ => .pure rfl

protected theorem initialLength :
    Follows floor Eq Reading.initialLength Decoder.initialLength := by
  apply (located Reading.uint32_performs.follows).bind_eq
  rintro ⟨start, length⟩
  dsimp only
  split
  · exact .pure rfl
  · exact failAt _ _

theorem version (start : Nat) :
    Follows floor Eq (Reading.version start) (Decoder.version start) := by
  apply Reading.uint16_performs.follows.bind_eq
  intro number
  cases Version.ofNumber? number with
  | none => exact failAt _ _
  | some version => exact .pure rfl

theorem checkedWidth (start : Nat) (size : UInt8) :
    Follows floor Eq (Reading.checkedWidth start size) (Decoder.checkedWidth start size) := by
  unfold Reading.checkedWidth Decoder.checkedWidth
  cases Width.ofUInt8? size with
  | none => exact failAt _ _
  | some width => exact .pure rfl

/-- A byte stands one below the place behind it. -/
protected theorem locatedBehind :
    Follows floor Eq Reading.locatedBehind Decoder.byte.located := by
  intro reader cursor stands above
  have run : Decoder.byte.located.run cursor =
      Decoder.byte.run cursor >>= fun found => .ok ((cursor.offset, found.1), found.2) := by
    change (Decoder.byte >>= fun value => pure (cursor.offset, value)).run cursor = _
    rw [Decoder.run_bind_eq]
    rfl
  unfold Reading.locatedBehind
  rw [run, Reading.result_bind]
  apply (Reading.byte_performs.follows reader cursor stands above).bind
  rintro ⟨value', reader'⟩ ⟨value, next⟩ outcome ⟨rfl, stands'⟩
  have behind : next.offset = cursor.offset + 1 := (Decoder.byte_of_run outcome).offset_eq
  have start : Checked.subtract reader'.offset 1 = .ok cursor.offset := by
    rw [stands'.offset, behind, Checked.subtract_eq_ok (Nat.le_add_left _ _), Nat.add_sub_cancel]
  change Settles _ (((liftM (Checked.subtract reader'.offset 1) : Reading Nat) >>=
    fun start => pure (start, value')).result reader') _
  exact settles_checked start (.pure ⟨rfl, stands'⟩)

end Follows

end Symbolication
