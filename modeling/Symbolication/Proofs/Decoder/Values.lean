import Symbolication.Decoder.Basic
import Symbolication.Proofs.Encoding.LittleEndian

/-!
What the values of a reading have in common, wherever it starts and whatever it reads, and the
readings that never fail on account of a form. Both are closed under binds; a condition on values is
handed on to the next reading, and to all values of a repeated one.
-/

namespace Symbolication.Decoder

variable {α β γ : Type} {decoder : Decoder α} {holds : α → Prop} {holdsNext : β → Prop}

/-- Every value that the reading comes to satisfies the condition. -/
def Yields (decoder : Decoder α) (holds : α → Prop) : Prop :=
  ∀ (cursor next : Cursor) (value : α), decoder.run cursor = .ok (value, next) → holds value

namespace Yields

protected theorem pure {value : α} (satisfied : holds value) :
    (pure value : Decoder α).Yields holds := by
  intro cursor next value' outcome
  cases outcome
  exact satisfied

protected theorem bind {continuation : α → Decoder β} (yields : decoder.Yields holds)
    (yieldsNext : ∀ value, holds value → (continuation value).Yields holdsNext) :
    (decoder >>= continuation).Yields holdsNext := by
  intro cursor next value outcome
  obtain ⟨first, _, reads, outcome⟩ := run_bind_eq_ok.mp outcome
  exact yieldsNext first (yields _ _ _ reads) _ _ _ outcome

/-- Whatever the first reading comes to. -/
theorem andThen {continuation : α → Decoder β}
    (yieldsNext : ∀ value, (continuation value).Yields holdsNext) :
    (decoder >>= continuation).Yields holdsNext := by
  intro cursor next value outcome
  obtain ⟨first, _, _, outcome⟩ := run_bind_eq_ok.mp outcome
  exact yieldsNext first _ _ _ outcome

protected theorem map {function : α → β} (yields : decoder.Yields holds)
    (satisfied : ∀ value, holds value → holdsNext (function value)) :
    (function <$> decoder).Yields holdsNext :=
  yields.bind fun value holds => .pure (satisfied value holds)

theorem mapAll {function : α → β} (satisfied : ∀ value, holdsNext (function value)) :
    (function <$> decoder).Yields holdsNext :=
  andThen fun value => .pure (satisfied value)

theorem failAt (offset : Nat) (fault : DecodeFault) :
    (Decoder.failAt offset fault).Yields holds := by
  intro cursor next value outcome
  cases outcome

theorem take (count : Nat) : (Decoder.take count).Yields (·.length = count) := by
  intro cursor next taken outcome
  simp only [Decoder.take] at outcome
  split at outcome
  · cases outcome
  · rename_i split
    cases outcome
    exact (Bytes.splitExactly?_sound split).2

theorem unsignedBytes (count : Nat) : (Decoder.unsignedBytes count).Yields (· < 256 ^ count) :=
  (take count).map fun taken length => length ▸ Bytes.littleEndian_lt taken

theorem mapM {reading : γ → Decoder α} (yields : ∀ row, (reading row).Yields holds)
    (rows : List γ) : (rows.mapM reading).Yields fun values => ∀ value ∈ values, holds value := by
  induction rows with
  | nil => exact .pure (List.forall_mem_nil _)
  | cons row rows induction =>
      rw [List.mapM_cons]
      refine (yields row).bind fun first isFirst => ?_
      refine induction.bind fun others areOthers => ?_
      apply Yields.pure
      exact List.forall_mem_cons.mpr ⟨isFirst, areOthers⟩

end Yields

/-- Whatever the reading fails for, it is not a form. -/
def BlamesNoForm (decoder : Decoder α) : Prop :=
  ∀ (cursor : Cursor) (error : DecodeError), decoder.run cursor = .error error →
    ∀ form, error.fault ≠ .unsupportedForm form

namespace BlamesNoForm

protected theorem pure (value : α) : (pure value : Decoder α).BlamesNoForm := by
  intro cursor error outcome
  cases outcome

protected theorem bind {continuation : α → Decoder β} (blames : decoder.BlamesNoForm)
    (blamesNext : ∀ value, (continuation value).BlamesNoForm) :
    (decoder >>= continuation).BlamesNoForm := by
  intro cursor error outcome
  rw [run_bind] at outcome
  cases reads : decoder.run cursor with
  | error error' =>
      rw [reads] at outcome
      cases outcome
      exact blames _ _ reads
  | ok result =>
      rw [reads] at outcome
      exact blamesNext _ _ _ outcome

protected theorem map (blames : decoder.BlamesNoForm) (function : α → β) :
    (function <$> decoder).BlamesNoForm :=
  blames.bind fun _ => .pure _

theorem take (count : Nat) : (Decoder.take count).BlamesNoForm := by
  intro cursor error outcome
  simp only [Decoder.take] at outcome
  split at outcome
  · cases outcome
    exact fun _ => DecodeFault.noConfusion
  · cases outcome

theorem unsignedBytes (count : Nat) : (Decoder.unsignedBytes count).BlamesNoForm :=
  (take count).map _

theorem address (size : UInt8) : (Decoder.address size).BlamesNoForm := by
  unfold Decoder.address
  split
  · exact (unsignedBytes _).map _
  · intro cursor error outcome
    cases outcome
    exact fun _ => DecodeFault.noConfusion

theorem leb128 (value : Bytes → Except Leb128.Fault α) :
    (Decoder.leb128 value).BlamesNoForm := by
  intro cursor error outcome
  simp only [Decoder.leb128] at outcome
  split at outcome
  · cases outcome
    exact fun _ => DecodeFault.noConfusion
  · cases outcome
    exact fun _ => DecodeFault.noConfusion
  · split at outcome
    · cases outcome
      exact fun _ => DecodeFault.noConfusion
    · cases outcome
      exact fun _ => DecodeFault.noConfusion
    · cases outcome

theorem count (start : Nat) (number : UInt64) : (Decoder.count start number).BlamesNoForm := by
  rw [count_eq]
  exact .pure _

theorem length : Decoder.length.BlamesNoForm := by
  rw [length_eq]
  exact (leb128 _).map _

theorem text : Decoder.text.BlamesNoForm := by
  have terminated : Decoder.terminated.BlamesNoForm := by
    intro cursor error outcome
    simp only [Decoder.terminated] at outcome
    split at outcome
    · cases outcome
      exact fun _ => DecodeFault.noConfusion
    · cases outcome
  exact terminated.map _

/-- A reading at an offset of another section, which may lie behind its end. -/
theorem lift_runAt (blames : decoder.BlamesNoForm) (source : DebugSection) (bytes : Bytes)
    (offset : Nat) : (Decoder.lift (decoder.runAt source bytes offset)).BlamesNoForm := by
  intro cursor error outcome
  unfold lift runAt Cursor.startAt at outcome
  by_cases inside : offset ≤ bytes.length
  · rw [if_pos inside] at outcome
    dsimp only [Bind.bind, Except.bind] at outcome
    cases reads : decoder.run
        { source, origin := offset, position := 0, rest := bytes.drop offset } with
    | error error' =>
        rw [reads] at outcome
        cases outcome
        exact blames _ _ reads
    | ok result =>
        rw [reads] at outcome
        cases outcome
  · rw [if_neg inside] at outcome
    cases outcome
    exact fun _ => DecodeFault.noConfusion

end BlamesNoForm

/-- A number that fits is the same whether it is read as a word or as its bytes. -/
theorem toNat_unsignedBytes {toNat : α → Nat} {ofNat : Nat → α} {count : Nat}
    (fits : ∀ {number}, number < 256 ^ count → toNat (ofNat number) = number) :
    toNat <$> ofNat <$> unsignedBytes count = unsignedBytes count := by
  ext cursor : 1
  rw [run_map, run_map]
  cases reads : (unsignedBytes count).run cursor with
  | error error => rfl
  | ok outcome =>
      obtain ⟨number, next⟩ := outcome
      dsimp only
      rw [fits (Yields.unsignedBytes count _ _ _ reads)]

theorem word_bind_count (width : Width) (start : Nat) :
    word width >>= count start = unsignedBytes width.bytes := by
  have room : 256 ^ width.bytes ≤ 2 ^ 64 := by cases width <;> decide
  have number : UInt64.toNat <$> word width = unsignedBytes width.bytes :=
    toNat_unsignedBytes fun fits => UInt64.toNat_ofNat_of_lt' (Nat.lt_of_lt_of_le fits room)
  rw [← number, ← bind_pure_comp]
  exact congrArg (word width >>= ·) (funext (count_eq start))

theorem uint32_bind_count (start : Nat) :
    (uint32 >>= fun number => count start number.toUInt64) = unsignedBytes 4 := by
  have number : UInt32.toNat <$> uint32 = unsignedBytes 4 :=
    toNat_unsignedBytes fun fits => UInt32.toNat_ofNat_of_lt' fits
  rw [← number, ← bind_pure_comp]
  exact congrArg (uint32 >>= ·) (funext fun number => count_eq start number.toUInt64)

end Symbolication.Decoder
