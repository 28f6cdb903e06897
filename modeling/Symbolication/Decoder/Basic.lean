import Symbolication.Cursor
import Symbolication.Leb128
import Symbolication.Text.Utf8
import Symbolication.Version
import Symbolication.Width

/-!
Decoders read a value at a cursor and say where the cursor stands afterwards. Every decoder stays in
the cursor's window and only moves forward; the type carries the proof. A decoder that fails has
moved nothing. `Consumes` says that a success takes at least one byte, and is what lets a
repetition end.
-/

namespace Symbolication

structure Decoder (α : Type) where
  run : Cursor → Except DecodeError (α × Cursor)
  reaches : ∀ {cursor next : Cursor} {value : α},
    run cursor = .ok (value, next) → cursor.Reaches next

namespace Decoder

variable {α β σ ρ : Type}

protected def pure (value : α) : Decoder α where
  run cursor := .ok (value, cursor)
  reaches := by
    intro cursor next value' outcome
    cases outcome
    exact .refl cursor

protected def bind (decoder : Decoder α) (continuation : α → Decoder β) : Decoder β where
  run cursor :=
    match decoder.run cursor with
    | .error error => .error error
    | .ok (value, next) => (continuation value).run next
  reaches := by
    intro cursor next value outcome
    split at outcome
    · contradiction
    · rename_i middle_value middle middle_outcome
      exact (decoder.reaches middle_outcome).trans ((continuation middle_value).reaches outcome)

instance : Monad Decoder where
  pure := Decoder.pure
  bind := Decoder.bind

@[ext] theorem ext {first second : Decoder α}
    (same : ∀ cursor, first.run cursor = second.run cursor) : first = second := by
  cases first
  cases second
  simp only [mk.injEq]
  exact funext same

@[simp] theorem run_pure (value : α) (cursor : Cursor) :
    (pure value : Decoder α).run cursor = .ok (value, cursor) := rfl

theorem run_bind (decoder : Decoder α) (continuation : α → Decoder β) (cursor : Cursor) :
    (decoder >>= continuation).run cursor =
      match decoder.run cursor with
      | .error error => .error error
      | .ok (value, next) => (continuation value).run next := rfl

theorem run_map (function : α → β) (decoder : Decoder α) (cursor : Cursor) :
    (function <$> decoder).run cursor =
      match decoder.run cursor with
      | .error error => .error error
      | .ok (value, next) => .ok (function value, next) := rfl

theorem run_bind_eq_ok {decoder : Decoder α} {continuation : α → Decoder β}
    {cursor next : Cursor} {value : β} :
    (decoder >>= continuation).run cursor = .ok (value, next) ↔
      ∃ first middle, decoder.run cursor = .ok (first, middle) ∧
        (continuation first).run middle = .ok (value, next) := by
  rw [run_bind]
  constructor
  · intro outcome
    split at outcome
    · contradiction
    · rename_i first middle start
      exact ⟨first, middle, start, outcome⟩
  · rintro ⟨first, middle, start, outcome⟩
    rw [start]
    exact outcome

instance : LawfulMonad Decoder := LawfulMonad.mk' Decoder
  (by
    intro α decoder
    ext cursor : 1
    change (decoder >>= pure).run cursor = _
    rw [run_bind]
    cases decoder.run cursor <;> rfl)
  (by
    intro α β value continuation
    rfl)
  (by
    intro α β γ decoder first second
    ext cursor : 1
    simp only [run_bind]
    cases decoder.run cursor <;> rfl)

def Consumes (decoder : Decoder α) : Prop :=
  ∀ (cursor next : Cursor) (value : α),
    decoder.run cursor = .ok (value, next) → next.left < cursor.left

theorem Consumes.bind {decoder : Decoder α} (consumes : decoder.Consumes)
    (continuation : α → Decoder β) : (decoder >>= continuation).Consumes := by
  intro cursor next value outcome
  rw [run_bind] at outcome
  split at outcome
  · contradiction
  · rename_i middle_value middle middle_outcome
    exact Nat.lt_of_le_of_lt ((continuation middle_value).reaches outcome).left_le
      (consumes _ _ _ middle_outcome)

theorem Consumes.of_bind (decoder : Decoder α) {continuation : α → Decoder β}
    (consumes : ∀ value, (continuation value).Consumes) : (decoder >>= continuation).Consumes := by
  intro cursor next value outcome
  rw [run_bind] at outcome
  split at outcome
  · contradiction
  · rename_i middle_value middle middle_outcome
    exact Nat.lt_of_lt_of_le (consumes middle_value _ _ _ outcome)
      (decoder.reaches middle_outcome).left_le

theorem Consumes.map {decoder : Decoder α} (consumes : decoder.Consumes) (function : α → β) :
    (function <$> decoder).Consumes :=
  consumes.bind _

def cursor : Decoder Cursor where
  run cursor := .ok (cursor, cursor)
  reaches := by
    intro cursor next value outcome
    cases outcome
    exact .refl _

/-- The result of a reading that does not move this cursor. -/
def lift (result : Except DecodeError α) : Decoder α where
  run cursor :=
    match result with
    | .error error => .error error
    | .ok value => .ok (value, cursor)
  reaches := by
    intro cursor next value outcome
    split at outcome <;> cases outcome
    exact .refl _

def offset : Decoder Nat := Cursor.offset <$> cursor

@[simp] theorem run_offset (cursor : Cursor) :
    offset.run cursor = .ok (cursor.offset, cursor) := rfl

def left : Decoder Nat := Cursor.left <$> cursor

def isFinished : Decoder Bool := Cursor.isFinished <$> cursor

@[simp] theorem run_isFinished (cursor : Cursor) :
    isFinished.run cursor = .ok (cursor.isFinished, cursor) := rfl

def remaining : Decoder Bytes := Cursor.rest <$> cursor

def failAt (offset : Nat) (fault : DecodeFault) : Decoder α where
  run cursor := .error { source := cursor.source, offset, fault }
  reaches := by
    intro cursor next value outcome
    cases outcome

def fail (fault : DecodeFault) : Decoder α where
  run cursor := .error (cursor.error fault)
  reaches := by
    intro cursor next value outcome
    cases outcome

/-- Exactly `count` bytes. -/
def take (count : Nat) : Decoder Bytes where
  run cursor :=
    match Bytes.splitExactly? count cursor.rest with
    | none => .error (cursor.error .unexpectedEnd)
    | some (taken, suffix) => .ok (taken, cursor.after taken suffix)
  reaches := by
    intro cursor next value outcome
    split at outcome <;> cases outcome
    rename_i split
    exact .of_append (Bytes.splitExactly?_sound split).1

theorem take_consumes {count : Nat} (some_bytes : 0 < count) : (take count).Consumes := by
  intro cursor next value outcome
  simp only [take] at outcome
  split at outcome <;> cases outcome
  rename_i split
  obtain ⟨rest_eq, length_eq⟩ := Bytes.splitExactly?_sound split
  exact Cursor.left_after_lt rest_eq (by omega)

def skip (count : Nat) : Decoder Unit := (fun _ => ()) <$> take count

/-- The next `length` bytes as a window of their own, which this cursor passes over. -/
def window (length : Nat) : Decoder Cursor := do
  let outer ← cursor
  let bytes ← take length
  pure { source := outer.source, origin := outer.offset, position := 0, rest := bytes }

/-- A reading inside a window. -/
def within (window : Cursor) (decoder : Decoder α) : Decoder α :=
  lift ((decoder.run window).map (·.1))

/-- The result of a decoder started at an offset of a section. -/
def runAt (decoder : Decoder α) (source : DebugSection) (bytes : Bytes) (offset : Nat) :
    Except DecodeError α := do
  let cursor ← Cursor.startAt source bytes offset
  let (value, _) ← decoder.run cursor
  .ok value

theorem runAt_eq_ok {decoder : Decoder α} {source : DebugSection} {bytes : Bytes} {offset : Nat}
    {value : α} :
    decoder.runAt source bytes offset = .ok value ↔
      offset ≤ bytes.length ∧ ∃ next, decoder.run
        { source, origin := offset, position := 0, rest := bytes.drop offset } =
          .ok (value, next) := by
  unfold runAt Cursor.startAt
  by_cases inside : offset ≤ bytes.length
  · rw [if_pos inside]
    dsimp only [Bind.bind, Except.bind]
    cases decoder.run
        { source, origin := offset, position := 0, rest := bytes.drop offset } with
    | error error => simp
    | ok result => simp [inside, Prod.ext_iff]
  · rw [if_neg inside]
    simp [Bind.bind, Except.bind, inside]

def unsignedBytes (count : Nat) : Decoder Nat := Bytes.littleEndian <$> take count

theorem unsignedBytes_consumes {count : Nat} (some_bytes : 0 < count) :
    (unsignedBytes count).Consumes :=
  (take_consumes some_bytes).map _

def byte : Decoder UInt8 := UInt8.ofNat <$> unsignedBytes 1

def signedByte : Decoder Int8 := UInt8.toInt8 <$> byte

def uint16 : Decoder UInt16 := UInt16.ofNat <$> unsignedBytes 2

def uint32 : Decoder UInt32 := UInt32.ofNat <$> unsignedBytes 4

def uint64 : Decoder UInt64 := UInt64.ofNat <$> unsignedBytes 8

def word (width : Width) : Decoder UInt64 := UInt64.ofNat <$> unsignedBytes width.bytes

/-- An address whose size has not been checked before. -/
def address (size : UInt8) : Decoder UInt64 :=
  match Width.ofUInt8? size with
  | some width => word width
  | none => fail (.unsupportedAddressSize size)

theorem address_toUInt8 (width : Width) : address width.toUInt8 = word width := by
  unfold address
  rw [Width.ofUInt8?_toUInt8]

theorem byte_consumes : byte.Consumes := (unsignedBytes_consumes (by decide)).map _

theorem uint32_consumes : uint32.Consumes := (unsignedBytes_consumes (by decide)).map _

theorem word_consumes (width : Width) : (word width).Consumes :=
  (unsignedBytes_consumes width.bytes_pos).map _

/-- A number in base 128, valued by `value`. Its faults are reported where it begins. -/
def leb128 (value : Bytes → Except Leb128.Fault α) : Decoder α where
  run cursor :=
    match Leb128.splitEncoding Leb128.maximumLength cursor.rest with
    | .error .truncated => .error (cursor.error .unexpectedEnd)
    | .error .overflow => .error (cursor.error .integerOverflow)
    | .ok (encoding, suffix) =>
        match value encoding with
        | .error .truncated => .error (cursor.error .unexpectedEnd)
        | .error .overflow => .error (cursor.error .integerOverflow)
        | .ok number => .ok (number, cursor.after encoding suffix)
  reaches := by
    intro cursor next value outcome
    split at outcome
    · contradiction
    · contradiction
    · rename_i split
      split at outcome <;> cases outcome
      exact .of_append (Leb128.splitEncoding_sound split).1

theorem leb128_consumes (value : Bytes → Except Leb128.Fault α) : (leb128 value).Consumes := by
  intro cursor next number outcome
  simp only [leb128] at outcome
  split at outcome
  · contradiction
  · contradiction
  · rename_i split
    split at outcome <;> cases outcome
    obtain ⟨rest_eq, length_pos⟩ := Leb128.splitEncoding_sound split
    exact Cursor.left_after_lt rest_eq length_pos

def unsigned : Decoder UInt64 := leb128 Leb128.unsignedValue

def signed : Decoder Int64 := leb128 Leb128.signedValue

theorem unsigned_consumes : unsigned.Consumes := leb128_consumes _

/-- A number that counts bytes in memory. One that is too large is reported at `start`. -/
def count (start : Nat) (number : UInt64) : Decoder Nat :=
  match Bytes.count? number with
  | some count => pure count
  | none => failAt start .integerOverflow

theorem count_eq (start : Nat) (number : UInt64) : count start number = pure number.toNat := by
  unfold count
  rw [Bytes.count?_eq]

/-- A number in base 128 that counts bytes in memory. -/
def length : Decoder Nat := do
  let start ← offset
  let number ← unsigned
  count start number

theorem length_eq : length = UInt64.toNat <$> unsigned := by
  unfold length
  simp only [count_eq]
  rfl

def terminated : Decoder Bytes where
  run cursor :=
    match Bytes.splitAtZero? cursor.rest with
    | none => .error (cursor.error .unterminatedString)
    | some (text, suffix) => .ok (text, cursor.after (text ++ [0]) suffix)
  reaches := by
    intro cursor next value outcome
    split at outcome <;> cases outcome
    rename_i split
    exact .of_append (by simp [(Bytes.splitAtZero?_sound split).1])

theorem terminated_consumes : terminated.Consumes := by
  intro cursor next value outcome
  simp only [terminated] at outcome
  split at outcome <;> cases outcome
  rename_i split
  exact Cursor.left_after_lt (by simp [(Bytes.splitAtZero?_sound split).1]) (by simp)

def text : Decoder String := Utf8.lossyText <$> terminated

/-- A reading together with the offset where it begins. -/
def located (decoder : Decoder α) : Decoder (Nat × α) := do
  let start ← offset
  let value ← decoder
  pure (start, value)

theorem start_of_located {decoder : Decoder α} {cursor next : Cursor} {start : Nat} {value : α}
    (outcome : decoder.located.run cursor = .ok ((start, value), next)) :
    start = cursor.offset := by
  obtain ⟨_, _, here, reads⟩ := run_bind_eq_ok.mp outcome
  obtain ⟨_, _, _, finish⟩ := run_bind_eq_ok.mp reads
  cases here
  cases finish
  rfl

theorem located_consumes {decoder : Decoder α} (consumes : decoder.Consumes) :
    decoder.located.Consumes :=
  .of_bind _ fun _ => consumes.bind _

end Decoder

end Symbolication
