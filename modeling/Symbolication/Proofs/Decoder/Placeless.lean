import Symbolication.Proofs.Decoder.Repetition

/-!
Readings that depend on nothing but the bytes ahead. What such a reading has understood it
understands at any other place too, whatever stands behind the bytes there; and if it fails, it
fails for the same reason wherever the same bytes are all there is. So a row of items can be cut
between two of them, and the second part be read on its own.
-/

namespace Symbolication.Decoder

variable {α β γ : Type}

theorem run_windowed (decoder : Decoder α) (length : Nat) (cursor : Cursor) :
    (Decoder.window length >>= fun window => within window decoder).run cursor =
      (Decoder.take length).run cursor >>= fun taken =>
        (fun result => (result.1, taken.2)) <$> decoder.run (cursor.windowOver taken.1) := by
  unfold Decoder.window
  simp only [bind_assoc, run_bind, Decoder.cursor, run_pure]
  cases (Decoder.take length).run cursor with
  | error error => rfl
  | ok result =>
      change (within (cursor.windowOver result.1) decoder).run result.2 =
        (fun inner => (inner.1, result.2)) <$> decoder.run (cursor.windowOver result.1)
      unfold within lift
      cases decoder.run (cursor.windowOver result.1) <;> rfl

/-- A success depends only on the bytes taken, and a failure, but for its place, on the bytes that
are left. -/
structure Placeless (decoder : Decoder α) : Prop where
  success : ∀ {cursor other next : Cursor} {value : α} {behind : Bytes},
    other.rest = cursor.rest ++ behind → decoder.run cursor = .ok (value, next) →
      ∃ next', decoder.run other = .ok (value, next') ∧ next'.rest = next.rest ++ behind
  failure : ∀ {cursor other : Cursor} {error : DecodeError},
    other.source = cursor.source → other.rest = cursor.rest →
      decoder.run cursor = .error error →
        ∃ offset, decoder.run other = .error { error with offset }

namespace Placeless

variable {decoder : Decoder α} {cursor other next : Cursor} {value : α} {behind : Bytes}

protected theorem pure (value : α) : (pure value : Decoder α).Placeless where
  success := by
    intro cursor other next value' behind ahead outcome
    cases outcome
    exact ⟨other, rfl, ahead⟩
  failure := by
    intro cursor other error _ _ outcome
    cases outcome

protected theorem bind {continuation : α → Decoder β} (placeless : decoder.Placeless)
    (placelessNext : ∀ value, (continuation value).Placeless) :
    (decoder >>= continuation).Placeless where
  success := by
    intro cursor other next value behind ahead outcome
    obtain ⟨middleValue, middle, start, finish⟩ := run_bind_eq_ok.mp outcome
    obtain ⟨middle', start', aheadNext⟩ := placeless.success ahead start
    obtain ⟨next', finish', rest⟩ := (placelessNext middleValue).success aheadNext finish
    exact ⟨next', run_bind_eq_ok.mpr ⟨middleValue, middle', start', finish'⟩, rest⟩
  failure := by
    intro cursor other error source same outcome
    rw [run_bind] at outcome ⊢
    cases start : decoder.run cursor with
    | error error' =>
        rw [start] at outcome
        cases outcome
        obtain ⟨offset, start'⟩ := placeless.failure source same start
        exact ⟨offset, by rw [start']⟩
    | ok result =>
        obtain ⟨middleValue, middle⟩ := result
        rw [start] at outcome
        have ahead : other.rest = cursor.rest ++ [] := by rw [same, List.append_nil]
        obtain ⟨middle', start', aheadNext⟩ := placeless.success ahead start
        have middleSource : middle'.source = middle.source :=
          (decoder.reaches start').source_eq.trans
            (source.trans (decoder.reaches start).source_eq.symm)
        rw [start']
        exact (placelessNext middleValue).failure middleSource
          (by rw [aheadNext, List.append_nil]) outcome

protected theorem map (placeless : decoder.Placeless) (function : α → β) :
    (function <$> decoder).Placeless := by
  rw [← bind_pure_comp]
  exact placeless.bind fun value => .pure (function value)

theorem fail (fault : DecodeFault) : (Decoder.fail fault : Decoder α).Placeless where
  success := by
    intro cursor other next value behind _ outcome
    cases outcome
  failure := by
    intro cursor other error source _ outcome
    cases outcome
    refine ⟨other.offset, ?_⟩
    simp only [Decoder.fail, Cursor.error, source]

theorem take (count : Nat) : (Decoder.take count).Placeless where
  success := by
    intro cursor other next value behind ahead outcome
    obtain ⟨length, stands, _⟩ := take_of_run outcome
    have stands' : other.rest = value ++ (next.rest ++ behind) := by
      rw [ahead, stands, List.append_assoc]
    exact ⟨_, (take_reads length).run stands', rfl⟩
  failure := by
    intro cursor other error source same outcome
    simp only [Decoder.take, same] at outcome ⊢
    split at outcome <;> cases outcome
    exact ⟨other.offset, by simp only [Cursor.error, source]⟩

theorem unsignedBytes (count : Nat) : (Decoder.unsignedBytes count).Placeless :=
  (take count).map _

theorem byte : Decoder.byte.Placeless := (unsignedBytes 1).map _

theorem uint16 : Decoder.uint16.Placeless := (unsignedBytes 2).map _

theorem address (size : UInt8) : (Decoder.address size).Placeless := by
  unfold Decoder.address
  split
  · exact (unsignedBytes _).map _
  · exact .fail _

theorem leb128 (meaning : Bytes → Except Leb128.Fault α) :
    (Decoder.leb128 meaning).Placeless where
  success := by
    intro cursor other next value behind ahead outcome
    simp only [Decoder.leb128] at outcome
    split at outcome
    · cases outcome
    · cases outcome
    · rename_i encoding suffix split
      split at outcome <;> cases outcome
      rename_i means
      have split' := Leb128.splitEncoding_append split behind
      rw [← ahead] at split'
      refine ⟨other.after encoding (suffix ++ behind), ?_, rfl⟩
      simp only [Decoder.leb128, split', means]
  failure := by
    intro cursor other error source same outcome
    refine ⟨other.offset, ?_⟩
    simp only [Decoder.leb128, same] at outcome ⊢
    split at outcome
    · cases outcome
      simp only [Cursor.error, source]
    · cases outcome
      simp only [Cursor.error, source]
    · split at outcome <;> cases outcome
      · simp only [Cursor.error, source]
      · simp only [Cursor.error, source]

theorem unsigned : Decoder.unsigned.Placeless := leb128 _

theorem length : Decoder.length.Placeless := by
  rw [Decoder.length_eq]
  exact unsigned.map _

theorem signed : Decoder.signed.Placeless := leb128 _

theorem terminated : Decoder.terminated.Placeless where
  success := by
    intro cursor other next text behind ahead outcome
    simp only [Decoder.terminated] at outcome
    split at outcome <;> cases outcome
    rename_i suffix split
    obtain ⟨stands, clean⟩ := Bytes.splitAtZero?_sound split
    have stands' : other.rest = (text ++ [0]) ++ (suffix ++ behind) := by
      rw [ahead, stands]
      simp
    exact ⟨_, (terminated_reads clean).run stands', rfl⟩
  failure := by
    intro cursor other error source same outcome
    simp only [Decoder.terminated, same] at outcome ⊢
    split at outcome <;> cases outcome
    exact ⟨other.offset, by simp only [Cursor.error, source]⟩

theorem text : Decoder.text.Placeless := terminated.map _

/-- A reading in a window of its own ends with the window, so what stands behind it does not matter
even if the reading fails. -/
theorem windowed (placeless : decoder.Placeless) (length : Nat) :
    (Decoder.window length >>= fun window => within window decoder).Placeless where
  success := by
    intro cursor other next value behind ahead outcome
    rw [run_windowed] at outcome ⊢
    cases taken : (Decoder.take length).run cursor with
    | error error =>
        rw [taken] at outcome
        cases outcome
    | ok result =>
        obtain ⟨bytes, middle⟩ := result
        obtain ⟨next', taken', rest⟩ := (take length).success ahead taken
        rw [taken] at outcome
        rw [taken']
        dsimp only [Bind.bind, Except.bind] at outcome ⊢
        cases inner : decoder.run (cursor.windowOver bytes) with
        | error error =>
            rw [inner] at outcome
            cases outcome
        | ok result =>
            have sameWindow : (other.windowOver bytes).rest =
                (cursor.windowOver bytes).rest ++ [] := (List.append_nil _).symm
            obtain ⟨_, inner', _⟩ := placeless.success sameWindow inner
            rw [inner] at outcome
            cases outcome
            rw [inner']
            exact ⟨next', rfl, rest⟩
  failure := by
    intro cursor other error source same outcome
    rw [run_windowed] at outcome ⊢
    cases taken : (Decoder.take length).run cursor with
    | error error' =>
        rw [taken] at outcome
        cases outcome
        obtain ⟨offset, taken'⟩ := (take length).failure source same taken
        rw [taken']
        exact ⟨offset, rfl⟩
    | ok result =>
        obtain ⟨bytes, middle⟩ := result
        have ahead : other.rest = cursor.rest ++ [] := by rw [same, List.append_nil]
        obtain ⟨next', taken', _⟩ := (take length).success ahead taken
        rw [taken] at outcome
        rw [taken']
        dsimp only [Bind.bind, Except.bind] at outcome ⊢
        cases inner : decoder.run (cursor.windowOver bytes) with
        | error error' =>
            rw [inner] at outcome
            cases outcome
            have sameSource : (other.windowOver bytes).source =
                (cursor.windowOver bytes).source := source
            obtain ⟨offset, inner'⟩ := placeless.failure sameSource rfl inner
            rw [inner']
            exact ⟨offset, rfl⟩
        | ok result =>
            rw [inner] at outcome
            cases outcome

end Placeless

/-- Items until nothing is left. -/
def itemsToEnd (head : Decoder β) (consumes : head.Consumes) (body : β → Decoder α) :
    Decoder (List α) :=
  itemsWhileLeft head consumes fun value => some <$> body value

section Items

variable {head : Decoder β} {consumes : head.Consumes} {body : β → Decoder α}
  {cursor other next : Cursor} {values : List α} {behind : Bytes}

theorem run_itemsToEnd_nil (nothing : cursor.rest = []) :
    (itemsToEnd head consumes body).run cursor = .ok ([], cursor) := by
  have finished : cursor.isFinished = true := by
    unfold Cursor.isFinished
    rw [nothing]
    rfl
  unfold itemsToEnd itemsWhileLeft
  rw [run_items, run_itemIfLeft, if_pos finished]

theorem run_itemsToEnd (left : cursor.rest ≠ []) :
    (itemsToEnd head consumes body).run cursor =
      match (head >>= body).run cursor with
      | .error error => .error error
      | .ok (value, next) =>
          (fun (values, final) => (value :: values, final)) <$>
            (itemsToEnd head consumes body).run next := by
  have unfinished : ¬cursor.isFinished = true := by
    unfold Cursor.isFinished
    rw [List.isEmpty_iff]
    exact left
  unfold itemsToEnd itemsWhileLeft
  rw [run_items, run_itemIfLeft, if_neg unfinished, ← map_bind, run_map]
  cases (head >>= body).run cursor with
  | error error => rfl
  | ok result =>
      dsimp only
      cases (items _ _).run result.2 <;> rfl

theorem itemsToEnd_induction {motive : Cursor → List α → Prop}
    (finish : ∀ {cursor}, cursor.rest = [] → motive cursor [])
    (another : ∀ {cursor next value values}, (head >>= body).run cursor = .ok (value, next) →
      motive next values → motive cursor (value :: values))
    (outcome : (itemsToEnd head consumes body).run cursor = .ok (values, next)) :
    motive cursor values := by
  unfold itemsToEnd itemsWhileLeft at outcome
  refine items_induction ?_ ?_ outcome
  · intro cursor next ended
    rw [run_itemIfLeft] at ended
    split at ended
    · rename_i finished
      exact finish (List.isEmpty_iff.mp finished)
    · rw [← map_bind, run_map] at ended
      split at ended <;> cases ended
  · intro cursor next value values step induction
    rw [run_itemIfLeft] at step
    split at step
    · cases step
    · rw [← map_bind, run_map] at step
      split at step
      · cases step
      · rename_i value' next' reads
        cases step
        exact another reads induction

theorem rest_ne_nil_of_run {value : α} (consumes : head.Consumes)
    (step : (head >>= body).run cursor = .ok (value, next)) : cursor.rest ≠ [] := by
  have shorter : next.left < cursor.left := consumes.bind body _ _ _ step
  intro nothing
  rw [Cursor.left, Cursor.left, nothing] at shorter
  exact Nat.not_lt_zero _ shorter

/-- A row that has been read to its end is the first part of any longer row over which every item is
read alike: the second part is read behind it on its own, and the whole fails exactly if the second
part does. -/
theorem run_itemsToEnd_append_of {alike : Cursor → Cursor → Prop}
    (ahead : ∀ {cursor other : Cursor}, alike cursor other → other.rest = cursor.rest ++ behind)
    (step : ∀ {cursor other next : Cursor} {value : α}, alike cursor other →
      (head >>= body).run cursor = .ok (value, next) →
        ∃ next', (head >>= body).run other = .ok (value, next') ∧ alike next next')
    (outcome : (itemsToEnd head consumes body).run cursor = .ok (values, next))
    (stands : alike cursor other) :
    (itemsToEnd head consumes body).run other =
      (fun (others, final) => (values ++ others, final)) <$>
        (itemsToEnd head consumes body).run (other.after cursor.rest behind) := by
  refine itemsToEnd_induction (motive := fun cursor values => ∀ other : Cursor,
    alike cursor other → (itemsToEnd head consumes body).run other =
      (fun (others, final) => (values ++ others, final)) <$>
        (itemsToEnd head consumes body).run (other.after cursor.rest behind)) ?_ ?_ outcome other
    stands
  · intro cursor nothing other stands
    have starts : other.rest = behind := by rw [ahead stands, nothing, List.nil_append]
    rw [nothing, Cursor.after_nil starts]
    exact (id_map _).symm
  · intro cursor next value values item induction other stands
    obtain ⟨next', item', standsNext⟩ := step stands item
    obtain ⟨taken, split, _, place⟩ := ((head >>= body).reaches item).eq_after
      ((head >>= body).reaches item') (ahead stands) (ahead standsNext)
    have left : other.rest ≠ [] := rest_ne_nil_of_run consumes item'
    rw [run_itemsToEnd left, item']
    dsimp only
    rw [induction _ standsNext, place, Cursor.after_after, ← split]
    cases (itemsToEnd head consumes body).run (other.after cursor.rest behind) <;> rfl

theorem run_itemsToEnd_append (placeless : (head >>= body).Placeless)
    (outcome : (itemsToEnd head consumes body).run cursor = .ok (values, next))
    (ahead : other.rest = cursor.rest ++ behind) :
    (itemsToEnd head consumes body).run other =
      (fun (others, final) => (values ++ others, final)) <$>
        (itemsToEnd head consumes body).run (other.after cursor.rest behind) :=
  run_itemsToEnd_append_of (fun ahead => ahead)
    (fun ahead item => placeless.success ahead item) outcome ahead

/-- Items that come to a function of others wherever they may stand make a row that comes to the
function of the other row. -/
theorem run_itemsToEnd_map {body' : β → Decoder γ} (function : α → γ) {least : Nat}
    (step : ∀ {cursor : Cursor}, least ≤ cursor.offset →
      (head >>= body').run cursor = (function <$> (head >>= body)).run cursor)
    {cursor : Cursor} (behind : least ≤ cursor.offset) :
    (itemsToEnd head consumes body').run cursor =
      (List.map function <$> itemsToEnd head consumes body).run cursor := by
  rw [run_map]
  by_cases left : cursor.rest = []
  · rw [run_itemsToEnd_nil left, run_itemsToEnd_nil left]
    rfl
  · rw [run_itemsToEnd left, run_itemsToEnd left, step behind, run_map]
    cases item : (head >>= body).run cursor with
    | error error => rfl
    | ok result =>
        obtain ⟨value, next⟩ := result
        have shorter : next.left < cursor.left := consumes.bind body _ _ _ item
        have behindNext : least ≤ next.offset :=
          Nat.le_trans behind ((head >>= body).reaches item).offset_le
        dsimp only
        rw [run_itemsToEnd_map function step behindNext, run_map]
        cases (itemsToEnd head consumes body).run next <;> rfl
termination_by cursor.left

/-- The same row at another place fails for the same reason. -/
theorem run_itemsToEnd_eq_error (placeless : (head >>= body).Placeless) {cursor other : Cursor}
    {error : DecodeError} (source : other.source = cursor.source) (same : other.rest = cursor.rest)
    (failed : (itemsToEnd head consumes body).run cursor = .error error) :
    ∃ offset, (itemsToEnd head consumes body).run other = .error { error with offset } := by
  by_cases left : cursor.rest = []
  · rw [run_itemsToEnd_nil left] at failed
    cases failed
  · rw [run_itemsToEnd left] at failed
    rw [run_itemsToEnd (same ▸ left)]
    cases step : (head >>= body).run cursor with
    | error error' =>
        rw [step] at failed
        cases failed
        obtain ⟨offset, step'⟩ := placeless.failure source same step
        rw [step']
        exact ⟨offset, rfl⟩
    | ok result =>
        obtain ⟨value, next⟩ := result
        have ahead : other.rest = cursor.rest ++ [] := by rw [same, List.append_nil]
        obtain ⟨next', step', rest⟩ := placeless.success ahead step
        have sourceNext : next'.source = next.source :=
          ((head >>= body).reaches step').source_eq.trans
            (source.trans ((head >>= body).reaches step).source_eq.symm)
        rw [List.append_nil] at rest
        rw [step] at failed
        rw [step']
        dsimp only at failed ⊢
        cases others : (itemsToEnd head consumes body).run next with
        | error error' =>
            rw [others] at failed
            cases failed
            have shorter : next.left < cursor.left := consumes.bind body _ _ _ step
            obtain ⟨offset, others'⟩ :=
              run_itemsToEnd_eq_error placeless sourceNext rest others
            rw [others']
            exact ⟨offset, rfl⟩
        | ok result =>
            rw [others] at failed
            cases failed
termination_by cursor.left

end Items

end Symbolication.Decoder
