import Symbolication.Proofs.Decoder.Reads
import Symbolication.Proofs.Reader.Basic

/-!
Programs on readers do what decoders do. From every reader that stands where a cursor does, such a
program does not stop: it leaves the reader where the decoder leaves the cursor, and behind a
failure where it stood.
-/

namespace Symbolication

theorem Cursor.passes_take (cursor : Cursor) (count : Nat) :
    cursor.Passes (cursor.rest.take count)
      (cursor.after (cursor.rest.take count) (cursor.rest.drop count)) :=
  ⟨(List.take_append_drop count cursor.rest).symm, rfl⟩

theorem Cursor.Reaches.passes {cursor next : Cursor} (reaches : cursor.Reaches next) :
    ∃ taken, cursor.Passes taken next := by
  obtain ⟨taken, split, stands⟩ := reaches
  exact ⟨taken, split, stands⟩

theorem Decoder.run_window_of_le_left {cursor : Cursor} {length : Nat}
    (enough : length ≤ cursor.left) :
    (window length).run cursor = .ok (cursor.windowOver (cursor.rest.take length),
      cursor.after (cursor.rest.take length) (cursor.rest.drop length)) :=
  (window_reads (List.length_take_of_le enough)).run
    (List.take_append_drop length cursor.rest).symm

theorem Decoder.run_window_of_left_lt {cursor : Cursor} {length : Nat}
    (few : cursor.left < length) :
    (window length).run cursor = .error (cursor.error .unexpectedEnd) := by
  unfold window
  rw [run_bind]
  change ((take length >>= _).run cursor) = _
  rw [run_bind, run_take_of_left_lt few]

/-- A split at the first zero byte is a split at its index. -/
theorem Bytes.findIdx?_zero (bytes : Bytes) :
    bytes.findIdx? (· = 0) = (Bytes.splitAtZero? bytes).map (·.1.length) := by
  induction bytes with
  | nil => rfl
  | cons byte rest induction =>
      by_cases zero : byte = 0
      · simp [List.findIdx?_cons, Bytes.splitAtZero?, zero]
      · have further : Bytes.splitAtZero? (byte :: rest) =
            (Bytes.splitAtZero? rest).map fun parts => (byte :: parts.1, parts.2) := by
          simp only [Bytes.splitAtZero?, List.dropWhile_cons, List.takeWhile_cons, ne_eq, zero,
            not_false_eq_true, decide_true, if_true]
          split <;> rfl
        rw [List.findIdx?_cons, if_neg (by simpa using zero), further, induction, Option.map_map,
          Option.map_map]
        rfl

namespace Reader

/-- A reader for the bytes that a cursor has ahead. -/
def ofWindow (window : Cursor) : Reader :=
  { source := window.source, origin := window.offset, data := window.rest, position := 0 }

/-- The place where the reader stands. -/
def cursor (reader : Reader) : Cursor :=
  { source := reader.source
    origin := reader.origin
    position := reader.position
    rest := reader.data.drop reader.position }

/-- The reader stands in the window where the cursor stands. Where the window begins need not be the
same, as long as the place in the section is. -/
structure Stands (reader : Reader) (cursor : Cursor) : Prop where
  source : reader.source = cursor.source
  offset : reader.offset = cursor.offset
  inside : reader.position ≤ reader.data.length
  rest : reader.data.drop reader.position = cursor.rest

theorem stands_cursor {reader : Reader} (inside : reader.position ≤ reader.data.length) :
    reader.Stands reader.cursor :=
  ⟨rfl, rfl, inside, rfl⟩

theorem stands_ofWindow (window : Cursor) : (ofWindow window).Stands window :=
  ⟨rfl, rfl, Nat.zero_le _, rfl⟩

namespace Stands

variable {reader : Reader} {cursor : Cursor}

theorem left_eq (stands : reader.Stands cursor) :
    reader.data.length - reader.position = cursor.left := by
  rw [Cursor.left, ← stands.rest, List.length_drop]

theorem left_eq_ok (stands : reader.Stands cursor) : reader.left = .ok cursor.left := by
  unfold Reader.left
  rw [Checked.subtract_eq_ok stands.inside, stands.left_eq]

theorem remaining_eq_ok (stands : reader.Stands cursor) : reader.remaining = .ok cursor.rest := by
  unfold Reader.remaining
  rw [Checked.slice_to_end stands.inside, stands.rest]

theorem error_eq (stands : reader.Stands cursor) (fault : DecodeFault) :
    reader.error fault = cursor.error fault := by
  unfold Reader.error Cursor.error
  rw [stands.source, stands.offset]

theorem stop_eq (stands : reader.Stands cursor) : reader.stop = cursor.offset + cursor.left := by
  have inside := stands.inside
  rw [← stands.left_eq, ← stands.offset]
  unfold Reader.stop Reader.offset
  omega

theorem isFinished_eq (stands : reader.Stands cursor) : reader.isFinished = cursor.isFinished := by
  unfold Reader.isFinished Cursor.isFinished
  rw [← stands.rest, Bool.eq_iff_iff, List.isEmpty_iff, List.drop_eq_nil_iff, decide_eq_true_iff]

theorem advance (stands : reader.Stands cursor) {taken : Bytes} {next : Cursor}
    (passes : cursor.Passes taken next) : (reader.advance taken.length).Stands next := by
  obtain ⟨split, place⟩ := passes
  have length := congrArg List.length (stands.rest.trans split)
  rw [List.length_drop, List.length_append] at length
  rw [place]
  constructor
  · exact stands.source
  · change reader.origin + (reader.position + taken.length) =
      cursor.origin + (cursor.position + taken.length)
    have offset : reader.origin + reader.position = cursor.origin + cursor.position := stands.offset
    omega
  · change reader.position + taken.length ≤ reader.data.length
    have inside := stands.inside
    omega
  · change reader.data.drop (reader.position + taken.length) = next.rest
    rw [← List.drop_drop, stands.rest, split, List.drop_left]

/-- The next bytes of the window, as the slice behind those that have been read. -/
theorem slice_eq (stands : reader.Stands cursor) {count : Nat} (enough : count ≤ cursor.left) :
    Checked.slice reader.data reader.position (reader.position + count) =
      .ok (cursor.rest.take count) := by
  have left := stands.left_eq
  have inside := stands.inside
  rw [Checked.slice_eq_ok (Nat.le_add_right _ _) (by omega), ← stands.rest, List.take_drop]

end Stands

end Reader

/-- What the decoder makes of a reader that stands where the cursor does: the reader is moved as far
as the cursor, or not at all. -/
def Decoder.perform {α : Type} (decoder : Decoder α) (reader : Reader) (cursor : Cursor) :
    Except DecodeError α × Reader :=
  match decoder.run cursor with
  | .error error => (.error error, reader)
  | .ok (value, next) => (.ok value, reader.advance (next.position - cursor.position))

theorem Decoder.perform_error {α : Type} {decoder : Decoder α} {cursor : Cursor}
    {error : DecodeError} (outcome : decoder.run cursor = .error error) (reader : Reader) :
    decoder.perform reader cursor = (.error error, reader) := by
  unfold perform
  rw [outcome]

theorem Decoder.perform_ok {α : Type} {decoder : Decoder α} {cursor next : Cursor} {value : α}
    {taken : Bytes} (outcome : decoder.run cursor = .ok (value, next))
    (passes : cursor.Passes taken next) (reader : Reader) :
    decoder.perform reader cursor = (.ok value, reader.advance taken.length) := by
  have moved : next.position - cursor.position = taken.length := by
    rw [passes.2]
    exact Nat.add_sub_cancel_left _ _
  unfold perform
  rw [outcome]
  dsimp only
  rw [moved]

theorem Decoder.perform_map {α β : Type} (decoder : Decoder α) (function : α → β) (reader : Reader)
    (cursor : Cursor) :
    (function <$> decoder).perform reader cursor =
      ((decoder.perform reader cursor).1.map function, (decoder.perform reader cursor).2) := by
  unfold perform
  rw [run_map]
  cases decoder.run cursor <;> rfl

namespace Reading

variable {α β : Type}

/-- From every reader that stands where a cursor does, the program does not stop and does what the
decoder does. -/
def Performs (program : Reading α) (decoder : Decoder α) : Prop :=
  ∀ (reader : Reader) (cursor : Cursor), reader.Stands cursor →
    program.apply reader = .ok (decoder.perform reader cursor)

namespace Performs

variable {program : Reading α} {decoder : Decoder α}

/-- What is done with a value that was found changes nothing and cannot fail. -/
theorem bind_found {continuation : α → Reading β} {function : α → β}
    (performs : program.Performs decoder)
    (plain : ∀ {cursor next : Cursor} {value : α}, decoder.run cursor = .ok (value, next) →
      continuation value = pure (function value)) :
    (program >>= continuation).Performs (function <$> decoder) := by
  intro reader cursor stands
  have result := performs reader cursor stands
  unfold Decoder.perform at result ⊢
  rw [Decoder.run_map]
  cases outcome : decoder.run cursor with
  | error error =>
      rw [outcome] at result
      exact apply_bind_error result continuation
  | ok found =>
      obtain ⟨value, next⟩ := found
      rw [outcome] at result
      rw [apply_bind_ok result continuation, plain outcome]
      rfl

protected theorem map (performs : program.Performs decoder) (function : α → β) :
    (function <$> program).Performs (function <$> decoder) := by
  rw [← bind_pure_comp]
  exact performs.bind_found fun _ => rfl

/-- A value that is in range for a checked operation. -/
theorem checked {operation : α → Checked β} {function : α → β}
    (performs : program.Performs decoder)
    (inRange : ∀ {cursor next : Cursor} {value : α}, decoder.run cursor = .ok (value, next) →
      operation value = .ok (function value)) :
    (program >>= fun value => (liftM (operation value) : Reading β)).Performs
      (function <$> decoder) := by
  apply performs.bind_found
  intro cursor next value outcome
  rw [inRange outcome]
  rfl

end Performs

theorem fail_performs (fault : DecodeFault) :
    (fail fault : Reading α).Performs (Decoder.fail fault) := by
  intro reader cursor stands
  rw [apply_fail, stands.error_eq]
  rfl

theorem apply_ifEnough {reader : Reader} {cursor : Cursor} (stands : reader.Stands cursor)
    {count : Nat} {program : Reading α} {outcome : Except DecodeError α × Reader}
    (few : cursor.left < count → outcome = (.error (cursor.error .unexpectedEnd), reader))
    (enough : count ≤ cursor.left → program.apply reader = .ok outcome) :
    (ifEnough count program).apply reader = .ok outcome := by
  unfold ifEnough
  rw [apply_get_bind, apply_checked_bind stands.left_eq_ok]
  by_cases short : cursor.left < count
  · rw [if_pos short, few short, apply_fail, stands.error_eq]
  · rw [if_neg short]
    exact enough (Nat.le_of_not_lt short)

theorem take_performs (count : Nat) : (take count).Performs (Decoder.take count) := by
  intro reader cursor stands
  apply apply_ifEnough stands
  · intro few
    exact Decoder.perform_error (Decoder.run_take_of_left_lt few) reader
  · intro enough
    rw [Decoder.perform_ok (Decoder.run_take_of_le_left enough) (cursor.passes_take count),
      List.length_take_of_le enough]
    exact apply_checked (stands.slice_eq enough) (reader.advance count)

theorem skip_performs (count : Nat) : (skip count).Performs (Decoder.skip count) := by
  intro reader cursor stands
  unfold Decoder.skip
  rw [Decoder.perform_map]
  apply apply_ifEnough stands
  · intro few
    rw [Decoder.perform_error (Decoder.run_take_of_left_lt few)]
    rfl
  · intro enough
    rw [Decoder.perform_ok (Decoder.run_take_of_le_left enough) (cursor.passes_take count),
      List.length_take_of_le enough]
    rfl

theorem window_performs (length : Nat) :
    (window length).Performs (Reader.ofWindow <$> Decoder.window length) := by
  intro reader cursor stands
  rw [Decoder.perform_map]
  apply apply_ifEnough stands
  · intro few
    rw [Decoder.perform_error (Decoder.run_window_of_left_lt few)]
    rfl
  · intro enough
    rw [Decoder.perform_ok (Decoder.run_window_of_le_left enough) (cursor.passes_take length),
      List.length_take_of_le enough, apply_get_bind, apply_checked_bind (stands.slice_eq enough),
      apply_modify_bind, apply_pure, stands.source, stands.offset]
    rfl

theorem array_performs (count : Nat) : (array count).Performs (Decoder.take count) := by
  rw [← id_map (Decoder.take count)]
  apply (take_performs count).checked
  intro cursor next bytes outcome
  exact Checked.copy_eq_ok (Decoder.take_of_run outcome).1

theorem unsignedBytes_performs (count : Nat) :
    (unsignedBytes count).Performs (Decoder.unsignedBytes count) :=
  (array_performs count).map _

theorem byte_performs : byte.Performs Decoder.byte := by
  have alone : Decoder.byte = (fun bytes => UInt8.ofNat (Bytes.littleEndian bytes)) <$>
      Decoder.take 1 := by
    unfold Decoder.byte Decoder.unsignedBytes
    rw [Functor.map_map]
  rw [alone]
  apply (array_performs 1).checked
  intro cursor next bytes outcome
  obtain ⟨value, rfl⟩ := List.length_eq_one_iff.mp (Decoder.take_of_run outcome).1
  have number : UInt8.ofNat (Bytes.littleEndian [value]) = value := by
    simp [Bytes.littleEndian]
  rw [number]
  rfl

theorem signedByte_performs : signedByte.Performs Decoder.signedByte :=
  ((unsignedBytes_performs 1).map _).map _

theorem uint16_performs : uint16.Performs Decoder.uint16 := (unsignedBytes_performs 2).map _

theorem uint32_performs : uint32.Performs Decoder.uint32 := (unsignedBytes_performs 4).map _

theorem uint64_performs : uint64.Performs Decoder.uint64 := (unsignedBytes_performs 8).map _

/-- A number is the same word whether it is widened or read as a wide one. -/
theorem widened_performs {program : Reading β} {width : Width} {narrow : Nat → β}
    {widen : β → UInt64}
    (performs : program.Performs (narrow <$> Decoder.unsignedBytes width.bytes))
    (same : ∀ {number}, number < 256 ^ width.bytes → widen (narrow number) = UInt64.ofNat number) :
    (widen <$> program).Performs (Decoder.word width) := by
  have words : widen <$> narrow <$> Decoder.unsignedBytes width.bytes = Decoder.word width := by
    ext cursor : 1
    unfold Decoder.word
    rw [Functor.map_map, Decoder.run_map, Decoder.run_map]
    cases outcome : (Decoder.unsignedBytes width.bytes).run cursor with
    | error error => rfl
    | ok found =>
        obtain ⟨number, next⟩ := found
        dsimp only
        rw [same (Decoder.unsignedBytes_of_run outcome).2]
  rw [← words]
  exact performs.map widen

theorem word_performs (width : Width) : (word width).Performs (Decoder.word width) := by
  cases width with
  | one => exact widened_performs byte_performs fun fits => UInt8.toUInt64_ofNat' fits
  | two => exact widened_performs uint16_performs fun fits => UInt16.toUInt64_ofNat' fits
  | four => exact widened_performs uint32_performs fun fits => UInt32.toUInt64_ofNat' fits
  | eight => exact uint64_performs

theorem address_performs (size : UInt8) : (address size).Performs (Decoder.address size) := by
  unfold address Decoder.address
  cases Width.ofUInt8? size with
  | none => exact fail_performs _
  | some width => exact word_performs width

theorem leb128_performs {meaning : Bytes → Except Leb128.Fault α}
    {decode : Bytes → Except Leb128.Fault (α × Nat)}
    (decodes : ∀ bytes, decode bytes = do
      let (encoding, _) ← Leb128.splitEncoding Leb128.maximumLength bytes
      let number ← meaning encoding
      .ok (number, encoding.length)) :
    (leb128 decode).Performs (Decoder.leb128 meaning) := by
  intro reader cursor stands
  have fails (fault : DecodeFault) : (fail fault : Reading α).apply reader =
      .ok (.error (cursor.error fault), reader) := by
    rw [apply_fail, stands.error_eq]
  unfold leb128
  rw [apply_get_bind, apply_checked_bind stands.remaining_eq_ok, decodes]
  cases split : Leb128.splitEncoding Leb128.maximumLength cursor.rest with
  | error fault =>
      simp only [Decoder.perform, Decoder.leb128, split]
      cases fault <;> exact fails _
  | ok parts =>
      obtain ⟨encoding, suffix⟩ := parts
      simp only [bind, Except.bind]
      cases number : meaning encoding with
      | error fault =>
          simp only [Decoder.perform, Decoder.leb128, split, number]
          cases fault <;> exact fails _
      | ok value =>
          have passes : cursor.Passes encoding (cursor.after encoding suffix) :=
            ⟨(Leb128.splitEncoding_sound split).1, rfl⟩
          have outcome : (Decoder.leb128 meaning).run cursor =
              .ok (value, cursor.after encoding suffix) := by
            simp only [Decoder.leb128, split, number]
          rw [Decoder.perform_ok outcome passes]
          rfl

theorem unsigned_performs : unsigned.Performs Decoder.unsigned := leb128_performs fun _ => rfl

theorem signed_performs : signed.Performs Decoder.signed := leb128_performs fun _ => rfl

/-- Every number of 64 bits is a count, so nothing fails behind the move. -/
theorem count_eq (start : Nat) (number : UInt64) : count start number = pure number.toNat := by
  unfold count
  rw [Bytes.count?_eq]

theorem length_performs : length.Performs Decoder.length := by
  rw [Decoder.length_eq]
  intro reader cursor stands
  refine unsigned_performs.bind_found ?_ reader cursor stands
  intro cursor next number outcome
  exact count_eq reader.offset number

theorem terminated_performs : terminated.Performs Decoder.terminated := by
  intro reader cursor stands
  unfold terminated
  rw [apply_get_bind, apply_checked_bind stands.remaining_eq_ok, Bytes.findIdx?_zero]
  cases split : Bytes.splitAtZero? cursor.rest with
  | none =>
      simp only [Decoder.perform, Decoder.terminated, split]
      exact (apply_fail _ reader).trans (by rw [stands.error_eq])
  | some parts =>
      obtain ⟨text, suffix⟩ := parts
      obtain ⟨whole, _⟩ := Bytes.splitAtZero?_sound split
      have inFront : Checked.slice cursor.rest 0 text.length = .ok text := by
        rw [Checked.slice_eq_ok (Nat.zero_le _) (by simp [whole]), whole, List.drop_zero,
          List.take_left]
      have outcome : Decoder.terminated.run cursor =
          .ok (text, cursor.after (text ++ [0]) suffix) := by
        simp only [Decoder.terminated, split]
      have passes : cursor.Passes (text ++ [0]) (cursor.after (text ++ [0]) suffix) :=
        ⟨by rw [whole, List.append_assoc]; rfl, rfl⟩
      simp only [Option.map_some]
      rw [Decoder.perform_ok outcome passes, apply_modify_bind, apply_checked inFront,
        List.length_append]
      rfl

theorem text_performs : text.Performs Decoder.text := terminated_performs.map _

end Reading

end Symbolication
