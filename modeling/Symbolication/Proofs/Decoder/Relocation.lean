import Symbolication.Decoder.Header
import Symbolication.Proofs.Decoder.Placeless

/-!
Bytes that stand somewhere else. A relocation moves the bytes of a section on by a distance and may
put more bytes behind them. Two readings are carried along when, over the moved bytes, the second
one finds what the first one found, at the moved places; a failure is carried along where nothing
was put behind it, since further bytes may let a reading go on.
-/

namespace Symbolication

/-- How the bytes of one section are moved. -/
structure Relocation where
  source : DebugSection
  distance : Nat
  /-- What follows the bytes at their new place. -/
  behind : Bytes

namespace Relocation

variable {relocation : Relocation}

/-- An error about moved bytes. Those about other sections stay as they are. -/
def error (relocation : Relocation) (error : DecodeError) : DecodeError :=
  if error.source = relocation.source then
    { error with offset := error.offset + relocation.distance }
  else error

theorem error_of_source {error : DecodeError} (moves : error.source = relocation.source) :
    relocation.error error = { error with offset := error.offset + relocation.distance } :=
  if_pos moves

theorem error_of_ne {error : DecodeError} (stays : error.source ≠ relocation.source) :
    relocation.error error = error :=
  if_neg stays

/-- Bytes at their new place among those of a section. -/
def into (source : DebugSection) (before behind : Bytes) : Relocation where
  source := source
  distance := before.length
  behind := behind

/-- The same move of bytes that a window of their own holds, with nothing behind them. -/
def alone (relocation : Relocation) : Relocation := { relocation with behind := [] }

/-- The other cursor stands in front of the moved bytes as the first one in front of the bytes. -/
structure Moves (relocation : Relocation) (cursor other : Cursor) : Prop where
  inSource : cursor.source = relocation.source
  source : other.source = cursor.source
  offset : other.offset = cursor.offset + relocation.distance
  rest : other.rest = cursor.rest ++ relocation.behind

variable {cursor other : Cursor}

theorem Moves.error_eq (moves : relocation.Moves cursor other) (fault : DecodeFault) :
    other.error fault = relocation.error (cursor.error fault) := by
  rw [error_of_source moves.inSource]
  unfold Cursor.error
  rw [moves.offset, moves.source]

theorem Moves.rest_eq (moves : relocation.Moves cursor other) (nothing : relocation.behind = []) :
    other.rest = cursor.rest := by
  rw [moves.rest, nothing, List.append_nil]

theorem Moves.after (moves : relocation.Moves cursor other) (taken left : Bytes) :
    relocation.Moves (cursor.after taken left) (other.after taken (left ++ relocation.behind)) where
  inSource := moves.inSource
  source := moves.source
  offset := by
    rw [Cursor.offset_after, Cursor.offset_after, moves.offset]
    omega
  rest := rfl

variable {α β γ δ σ : Type} {related : α → β → Prop} {relatedNext : γ → δ → Prop}

/-- The second decoder reads the moved bytes as the first one reads them where they were. -/
structure Carries (relocation : Relocation) (related : α → β → Prop) (first : Decoder α)
    (second : Decoder β) : Prop where
  success : ∀ {cursor other next : Cursor} {value : α}, relocation.Moves cursor other →
    first.run cursor = .ok (value, next) →
      ∃ value' next', second.run other = .ok (value', next') ∧ relocation.Moves next next' ∧
        related value value'
  failure : ∀ {cursor other : Cursor} {error : DecodeError}, relocation.behind = [] →
    relocation.Moves cursor other → first.run cursor = .error error →
      second.run other = .error (relocation.error error)

namespace Carries

variable {first : Decoder α} {second : Decoder β}

protected theorem pure {value : α} {value' : β} (same : related value value') :
    relocation.Carries related (pure value) (pure value') where
  success := by
    intro cursor other next value'' moves outcome
    cases outcome
    exact ⟨value', other, rfl, moves, same⟩
  failure := by
    intro cursor other error _ _ outcome
    cases outcome

protected theorem bind {continuation : α → Decoder γ} {continuation' : β → Decoder δ}
    (carries : relocation.Carries related first second)
    (carriesNext : ∀ value value', related value value' →
      relocation.Carries relatedNext (continuation value) (continuation' value')) :
    relocation.Carries relatedNext (first >>= continuation) (second >>= continuation') where
  success := by
    intro cursor other next value moves outcome
    obtain ⟨middleValue, middle, start, finish⟩ := Decoder.run_bind_eq_ok.mp outcome
    obtain ⟨middleValue', middle', start', movesNext, same⟩ := carries.success moves start
    obtain ⟨value', next', finish', movesLast, sameNext⟩ :=
      (carriesNext middleValue middleValue' same).success movesNext finish
    exact ⟨value', next', Decoder.run_bind_eq_ok.mpr ⟨middleValue', middle', start', finish'⟩,
      movesLast, sameNext⟩
  failure := by
    intro cursor other error nothing moves outcome
    rw [Decoder.run_bind] at outcome ⊢
    cases start : first.run cursor with
    | error error' =>
        rw [start] at outcome
        cases outcome
        rw [carries.failure nothing moves start]
    | ok result =>
        obtain ⟨middleValue, middle⟩ := result
        rw [start] at outcome
        obtain ⟨middleValue', middle', start', movesNext, same⟩ := carries.success moves start
        rw [start']
        exact (carriesNext middleValue middleValue' same).failure nothing movesNext outcome

protected theorem map {function : α → γ} {function' : β → δ}
    (carries : relocation.Carries related first second)
    (same : ∀ value value', related value value' → relatedNext (function value)
      (function' value')) :
    relocation.Carries relatedNext (function <$> first) (function' <$> second) := by
  rw [← bind_pure_comp, ← bind_pure_comp]
  exact carries.bind fun value value' before => .pure (same value value' before)

theorem map_eq {first second : Decoder α} (carries : relocation.Carries Eq first second)
    (function : α → γ) : relocation.Carries Eq (function <$> first) (function <$> second) :=
  carries.map fun _ _ same => congrArg function same

theorem bind_eq {first second : Decoder α} {continuation : α → Decoder γ}
    {continuation' : α → Decoder δ} (carries : relocation.Carries Eq first second)
    (carriesNext : ∀ value,
      relocation.Carries relatedNext (continuation value) (continuation' value)) :
    relocation.Carries relatedNext (first >>= continuation) (second >>= continuation') := by
  apply carries.bind
  rintro value _ rfl
  exact carriesNext value

theorem failAt (start : Nat) (fault : DecodeFault) :
    relocation.Carries related (.failAt start fault)
      (.failAt (start + relocation.distance) fault) where
  success := by
    intro cursor other next value _ outcome
    cases outcome
  failure := by
    intro cursor other error _ moves outcome
    cases outcome
    have inSource : ({ source := cursor.source, offset := start, fault } : DecodeError).source =
        relocation.source := moves.inSource
    rw [error_of_source inSource, ← moves.source]
    rfl

theorem offset :
    relocation.Carries (fun place place' => place' = place + relocation.distance)
      Decoder.offset Decoder.offset where
  success := by
    intro cursor other next value moves outcome
    cases outcome
    exact ⟨_, other, rfl, moves, moves.offset⟩
  failure := by
    intro cursor other error _ _ outcome
    cases outcome

/-- More bytes may be left at the new place, never fewer. -/
theorem left :
    relocation.Carries (fun count count' => count' = count + relocation.behind.length)
      Decoder.left Decoder.left where
  success := by
    intro cursor other next value moves outcome
    cases outcome
    have longer : other.left = cursor.left + relocation.behind.length := by
      rw [Cursor.left, moves.rest, List.length_append, Cursor.left]
    exact ⟨_, other, rfl, moves, longer⟩
  failure := by
    intro cursor other error _ _ outcome
    cases outcome

theorem currentCursor : relocation.Carries relocation.Moves Decoder.cursor Decoder.cursor where
  success := by
    intro cursor other next value moves outcome
    cases outcome
    exact ⟨other, other, rfl, moves, moves⟩
  failure := by
    intro cursor other error _ _ outcome
    cases outcome

theorem isFinished (nothing : relocation.behind = []) :
    relocation.Carries Eq Decoder.isFinished Decoder.isFinished where
  success := by
    intro cursor other next value moves outcome
    cases outcome
    exact ⟨_, other, rfl, moves, congrArg List.isEmpty (moves.rest_eq nothing).symm⟩
  failure := by
    intro cursor other error _ _ outcome
    cases outcome

theorem located (carries : relocation.Carries related first second) :
    relocation.Carries
      (fun pair pair' => pair'.1 = pair.1 + relocation.distance ∧ related pair.2 pair'.2)
      first.located second.located :=
  offset.bind fun _ _ place => carries.bind fun _ _ same => .pure ⟨place, same⟩

/-- The result of a reading in another section does not depend on what is moved. -/
theorem lift {result : Except DecodeError α}
    (elsewhere : ∀ error, result = .error error → error.source ≠ relocation.source) :
    relocation.Carries Eq (.lift result) (.lift result) where
  success := by
    intro cursor other next value moves outcome
    unfold Decoder.lift at outcome ⊢
    cases result with
    | error error => cases outcome
    | ok value' =>
        cases outcome
        exact ⟨_, other, rfl, moves, rfl⟩
  failure := by
    intro cursor other error _ _ outcome
    unfold Decoder.lift at outcome ⊢
    cases result with
    | ok value => cases outcome
    | error error' =>
        cases outcome
        exact congrArg Except.error (error_of_ne (elsewhere error rfl)).symm

/-- A reading that goes by the bytes ahead is carried along if it reports its faults where it
begins. -/
theorem ofPlaceless {decoder : Decoder α} (placeless : decoder.Placeless)
    (here : ∀ {cursor : Cursor} {error : DecodeError}, decoder.run cursor = .error error →
      ∃ fault, error = cursor.error fault) : relocation.Carries Eq decoder decoder where
  success := by
    intro cursor other next value moves outcome
    obtain ⟨next', outcome', rest⟩ := placeless.success moves.rest outcome
    obtain ⟨taken, _, place, place'⟩ :=
      (decoder.reaches outcome).eq_after (decoder.reaches outcome') moves.rest rest
    refine ⟨value, next', outcome', ?_, rfl⟩
    rw [place, place']
    exact moves.after taken next.rest
  failure := by
    intro cursor other error nothing moves outcome
    obtain ⟨fault, rfl⟩ := here outcome
    obtain ⟨offset, outcome'⟩ := placeless.failure moves.source (moves.rest_eq nothing) outcome
    obtain ⟨fault', place⟩ := here outcome'
    cases (DecodeError.mk.inj place).2.2
    rw [outcome', place]
    exact congrArg Except.error (moves.error_eq fault)

theorem take (count : Nat) : relocation.Carries Eq (.take count) (.take count) := by
  apply ofPlaceless (.take count)
  intro cursor error outcome
  simp only [Decoder.take] at outcome
  split at outcome <;> cases outcome
  exact ⟨_, rfl⟩

theorem unsignedBytes (count : Nat) :
    relocation.Carries Eq (.unsignedBytes count) (.unsignedBytes count) :=
  (take count).map_eq _

theorem byte : relocation.Carries Eq Decoder.byte Decoder.byte := (unsignedBytes 1).map_eq _

theorem uint16 : relocation.Carries Eq Decoder.uint16 Decoder.uint16 := (unsignedBytes 2).map_eq _

theorem uint32 : relocation.Carries Eq Decoder.uint32 Decoder.uint32 := (unsignedBytes 4).map_eq _

theorem uint64 : relocation.Carries Eq Decoder.uint64 Decoder.uint64 := (unsignedBytes 8).map_eq _

theorem word (width : Width) : relocation.Carries Eq (.word width) (.word width) :=
  (unsignedBytes width.bytes).map_eq _

theorem signedByte : relocation.Carries Eq Decoder.signedByte Decoder.signedByte := byte.map_eq _

theorem address (size : UInt8) : relocation.Carries Eq (.address size) (.address size) := by
  unfold Decoder.address
  split
  · exact word _
  · refine ofPlaceless (.fail _) ?_
    intro cursor error outcome
    cases outcome
    exact ⟨_, rfl⟩

/-- A window is moved with what it holds; what was put behind it lies outside. -/
theorem window (length : Nat) :
    relocation.Carries relocation.alone.Moves (.window length) (.window length) := by
  apply currentCursor.bind
  intro outer outer' moves
  apply (take length).bind_eq
  intro bytes
  exact .pure ⟨moves.inSource, moves.source, moves.offset, (List.append_nil bytes).symm⟩

/-- In a window a reading is carried along even if it fails. -/
theorem within {inner inner' : Cursor} (moves : relocation.alone.Moves inner inner')
    (carries : relocation.alone.Carries related first second) :
    relocation.Carries related (.within inner first) (.within inner' second) where
  success := by
    intro cursor other next value movesOuter outcome
    obtain ⟨rfl, final, outcome⟩ := Decoder.within_of_run outcome
    obtain ⟨value', final', outcome', _, same⟩ := carries.success moves outcome
    refine ⟨value', other, ?_, movesOuter, same⟩
    unfold Decoder.within
    rw [outcome']
    rfl
  failure := by
    intro cursor other error _ _ outcome
    unfold Decoder.within at outcome ⊢
    cases fails : first.run inner with
    | ok result =>
        rw [fails] at outcome
        cases outcome
    | error error' =>
        rw [fails] at outcome
        cases outcome
        rw [carries.failure rfl moves fails]
        rfl

theorem leb128 (value : Bytes → Except Leb128.Fault α) :
    relocation.Carries Eq (.leb128 value) (.leb128 value) := by
  apply ofPlaceless (.leb128 value)
  intro cursor error outcome
  simp only [Decoder.leb128] at outcome
  split at outcome
  · cases outcome
    exact ⟨_, rfl⟩
  · cases outcome
    exact ⟨_, rfl⟩
  · split at outcome <;> cases outcome <;> exact ⟨_, rfl⟩

theorem unsigned : relocation.Carries Eq Decoder.unsigned Decoder.unsigned := leb128 _

/-- Every number is a count, so the place that would be reported does not matter. -/
theorem count (start start' : Nat) (number : UInt64) :
    relocation.Carries Eq (.count start number) (.count start' number) := by
  rw [Decoder.count_eq, Decoder.count_eq]
  exact .pure rfl

theorem length : relocation.Carries Eq Decoder.length Decoder.length := by
  rw [Decoder.length_eq]
  exact unsigned.map_eq _

theorem signed : relocation.Carries Eq Decoder.signed Decoder.signed := leb128 _

theorem terminated : relocation.Carries Eq Decoder.terminated Decoder.terminated := by
  apply ofPlaceless .terminated
  intro cursor error outcome
  simp only [Decoder.terminated] at outcome
  split at outcome <;> cases outcome
  exact ⟨_, rfl⟩

theorem text : relocation.Carries Eq Decoder.text Decoder.text := terminated.map_eq _

theorem initialLength : relocation.Carries Eq Decoder.initialLength Decoder.initialLength := by
  apply (located uint32).bind
  rintro ⟨start, length⟩ ⟨start', length'⟩ ⟨place, same⟩
  cases place
  cases same
  dsimp only
  split
  · exact .pure rfl
  · exact .failAt _ _

theorem version (start : Nat) :
    relocation.Carries Eq (.version start) (.version (start + relocation.distance)) := by
  apply uint16.bind_eq
  intro number
  split
  · exact .pure rfl
  · exact .failAt _ _

theorem checkedWidth (start : Nat) (size : UInt8) :
    relocation.Carries Eq (.checkedWidth start size)
      (.checkedWidth (start + relocation.distance) size) := by
  unfold Decoder.checkedWidth
  split
  · exact .pure rfl
  · exact .failAt _ _

theorem addressWidth : relocation.Carries Eq Decoder.addressWidth Decoder.addressWidth := by
  apply (located byte).bind
  rintro ⟨start, size⟩ ⟨start', size'⟩ ⟨place, same⟩
  cases place
  cases same
  exact checkedWidth start size

theorem mapM {reading : γ → Decoder α}
    (carries : ∀ row, relocation.Carries Eq (reading row) (reading row)) (rows : List γ) :
    relocation.Carries Eq (rows.mapM reading) (rows.mapM reading) := by
  induction rows with
  | nil => exact .pure rfl
  | cons row rows induction =>
      rw [List.mapM_cons]
      exact (carries row).bind_eq fun value => induction.bind_eq fun values => .pure rfl

section Rounds

variable {round round' : σ → Decoder (Decoder.Round σ)}
  {consumes : ∀ {state state' cursor next},
    (round state).run cursor = .ok (.again state', next) → next.left < cursor.left}
  {consumes' : ∀ {state state' cursor next},
    (round' state).run cursor = .ok (.again state', next) → next.left < cursor.left}

variable (consumes consumes') in
/-- Rounds that are carried along one by one are so as long as they last. -/
theorem rounds (carries : ∀ state, relocation.Carries Eq (round state) (round' state))
    (state : σ) :
    relocation.Carries Eq (.rounds round consumes state) (.rounds round' consumes' state) where
  success := by
    intro cursor other next final moves outcome
    change Decoder.runRounds round consumes state cursor = _ at outcome
    change ∃ value' next', Decoder.runRounds round' consumes' state other = _ ∧ _
    fun_induction Decoder.runRounds round consumes state cursor generalizing other with
    | case1 state cursor error step => cases outcome
    | case2 state cursor stop step =>
        cases outcome
        obtain ⟨_, next', step', movesNext, rfl⟩ := (carries final).success moves step
        exact ⟨final, next', by rw [Decoder.runRounds_eq, step'], movesNext, rfl⟩
    | case3 state cursor state' middle step induction =>
        obtain ⟨_, middle', step', movesNext, rfl⟩ := (carries state).success moves step
        rw [Decoder.runRounds_eq, step']
        exact induction movesNext outcome
  failure := by
    intro cursor other error nothing moves outcome
    change Decoder.runRounds round consumes state cursor = _ at outcome
    change Decoder.runRounds round' consumes' state _ = _
    fun_induction Decoder.runRounds round consumes state cursor generalizing other with
    | case1 state cursor error' step =>
        cases outcome
        rw [Decoder.runRounds_eq, (carries state).failure nothing moves step]
    | case2 state cursor stop step => cases outcome
    | case3 state cursor state' middle step induction =>
        obtain ⟨_, middle', step', movesNext, rfl⟩ := (carries state).success moves step
        rw [Decoder.runRounds_eq, step']
        exact induction movesNext outcome

end Rounds

theorem items {item item' : Decoder (Option α)}
    (consumes : ∀ {value cursor next},
      item.run cursor = .ok (some value, next) → next.left < cursor.left)
    (consumes' : ∀ {value cursor next},
      item'.run cursor = .ok (some value, next) → next.left < cursor.left)
    (carries : relocation.Carries Eq item item') :
    relocation.Carries Eq (.items item consumes) (.items item' consumes') :=
  map_eq (rounds (Decoder.ofItem_consumes consumes) (Decoder.ofItem_consumes consumes')
    (fun found => carries.map_eq (Decoder.Round.ofItem found)) []) List.reverse

theorem itemsUntil {head : Decoder β} {consumes : head.Consumes}
    {body body' : β → Decoder (Option α)}
    (item : relocation.Carries Eq (head >>= body) (head >>= body')) :
    relocation.Carries Eq (.itemsUntil head consumes body)
      (.itemsUntil head consumes body') :=
  items (consumes.bind body _ _ _) (consumes.bind body' _ _ _) item

/-- Items until nothing is left are the same where nothing was put behind them. -/
theorem itemsWhileLeft (nothing : relocation.behind = []) {head : Decoder β}
    {consumes : head.Consumes} {body body' : β → Decoder (Option α)}
    (item : relocation.Carries Eq (head >>= body) (head >>= body')) :
    relocation.Carries Eq (.itemsWhileLeft head consumes body)
      (.itemsWhileLeft head consumes body') := by
  have carriesItem : relocation.Carries Eq (.itemIfLeft head body) (.itemIfLeft head body') := by
    unfold Decoder.itemIfLeft
    apply (isFinished nothing).bind_eq
    intro finished
    cases finished with
    | true => exact .pure rfl
    | false => exact item
  exact items (Decoder.itemIfLeft_consumes consumes) (Decoder.itemIfLeft_consumes consumes)
    carriesItem

theorem itemsToEnd (nothing : relocation.behind = []) {head : Decoder β}
    {consumes : head.Consumes} {body body' : β → Decoder α}
    (item : relocation.Carries Eq (head >>= body) (head >>= body')) :
    relocation.Carries Eq (.itemsToEnd head consumes body)
      (.itemsToEnd head consumes body') := by
  unfold Decoder.itemsToEnd
  apply itemsWhileLeft nothing
  rw [← map_bind, ← map_bind]
  exact item.map_eq some

theorem roundsWhileLeft (nothing : relocation.behind = []) {head : Decoder β}
    {consumes : head.Consumes} {body : σ → β → Decoder (Decoder.Round σ)}
    (carries : ∀ state, relocation.Carries Eq (head >>= body state) (head >>= body state))
    (state : σ) :
    relocation.Carries Eq (.roundsWhileLeft head consumes body state)
      (.roundsWhileLeft head consumes body state) := by
  unfold Decoder.roundsWhileLeft
  apply rounds
  intro state
  unfold Decoder.roundIfLeft
  apply (isFinished nothing).bind_eq
  intro finished
  cases finished with
  | true => exact .pure rfl
  | false => exact carries state

/-- A row that has been read to its end is read alike where bytes were put behind it, and these
begin a row of their own. -/
theorem itemsToEnd_append {head : Decoder β} {consumes : head.Consumes} {body : β → Decoder α}
    (item : relocation.Carries Eq (head >>= body) (head >>= body))
    (moves : relocation.Moves cursor other) {values : List α} {next : Cursor}
    (outcome : (Decoder.itemsToEnd head consumes body).run cursor = .ok (values, next)) :
    (Decoder.itemsToEnd head consumes body).run other =
      (fun (others, final) => (values ++ others, final)) <$>
        (Decoder.itemsToEnd head consumes body).run
          (other.after cursor.rest relocation.behind) := by
  refine Decoder.run_itemsToEnd_append_of (fun moves => moves.rest) ?_ outcome moves
  intro cursor other next value moves reads
  obtain ⟨_, next', reads', movesNext, rfl⟩ := item.success moves reads
  exact ⟨next', reads', movesNext⟩

/-- Where nothing was put behind them, the moved bytes are read as the same value or fail alike. -/
theorem value_eq (nothing : relocation.behind = []) {first second : Decoder α}
    (carries : relocation.Carries Eq first second) (moves : relocation.Moves cursor other) :
    (·.1) <$> second.run other = ((·.1) <$> first.run cursor).mapError relocation.error := by
  cases outcome : first.run cursor with
  | error error =>
      rw [carries.failure nothing moves outcome]
      rfl
  | ok result =>
      obtain ⟨_, _, outcome', _, rfl⟩ := carries.success moves outcome
      rw [outcome']
      rfl

section Start

variable {source : DebugSection} {first second : Decoder α} {bytes : Bytes}

theorem moves_into (before bytes behind : Bytes) :
    (into source before behind).Moves (.startingAt source 0 bytes)
      (.startingAt source before.length (bytes ++ behind)) :=
  ⟨rfl, rfl, (Nat.zero_add _).symm, rfl⟩

/-- What was read at the beginning of a section is read at its new place. -/
theorem runAt_success {second : Decoder β} {before behind : Bytes} {value : α}
    (carries : (into source before behind).Carries related first second)
    (reads : first.runAt source bytes 0 = .ok value) :
    ∃ value', second.runAt source (before ++ bytes ++ behind) before.length = .ok value' ∧
      related value value' := by
  obtain ⟨_, next, outcome⟩ := Decoder.runAt_eq_ok.mp reads
  obtain ⟨value', next', outcome', _, same⟩ :=
    carries.success (moves_into before bytes behind) outcome
  refine ⟨value', ?_, same⟩
  rw [Decoder.runAt_of_le (by simp), List.append_assoc, List.drop_left, outcome']
  rfl

theorem runAt_failure {second : Decoder β} {before : Bytes} {error : DecodeError}
    (carries : (into source before []).Carries related first second)
    (fails : first.runAt source bytes 0 = .error error) :
    second.runAt source (before ++ bytes) before.length =
      .error ((into source before []).error error) := by
  rw [Decoder.runAt_of_le (Nat.zero_le _)] at fails
  have moves : (into source before []).Moves (.startingAt source 0 bytes)
      (.startingAt source before.length (bytes ++ [])) := moves_into before bytes []
  rw [List.append_nil] at moves
  rw [Decoder.runAt_of_le (by simp), List.drop_left]
  cases outcome : first.run (.startingAt source 0 bytes) with
  | ok result =>
      rw [List.drop_zero, outcome] at fails
      cases fails
  | error error' =>
      rw [List.drop_zero, outcome] at fails
      cases fails
      rw [carries.failure rfl moves outcome]
      rfl

end Start

/-- Readings started at an offset of the bytes and at the one where it is moved to. -/
theorem runAt_eq (nothing : relocation.behind = []) {first second : Decoder α}
    (carries : relocation.Carries Eq first second) {bytes moved : Bytes} {offset : Nat}
    (inside : offset ≤ bytes.length)
    (length : moved.length = relocation.distance + bytes.length)
    (stands : moved.drop (offset + relocation.distance) = bytes.drop offset) :
    second.runAt relocation.source moved (offset + relocation.distance) =
      (first.runAt relocation.source bytes offset).mapError relocation.error := by
  rw [Decoder.runAt_of_le inside, Decoder.runAt_of_le (by omega), stands]
  refine carries.value_eq nothing ⟨rfl, rfl, rfl, ?_⟩
  rw [nothing]
  exact (List.append_nil _).symm

end Carries

end Relocation

end Symbolication
