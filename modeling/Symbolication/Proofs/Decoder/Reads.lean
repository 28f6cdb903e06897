import Symbolication.Decoder.Header
import Symbolication.Decoder.Repetition
import Symbolication.Proofs.Encoding.Leb128
import Symbolication.Proofs.Encoding.LittleEndian
import Symbolication.Proofs.Encoding.Utf8

/-!
What a decoder makes of given bytes. `Reads` says that it takes exactly those bytes from the front
of what is left and understands them as a value; it composes along the bytes, so a format is read
back field by field.
-/

namespace Symbolication

theorem Width.toUInt8_of_ofUInt8? {size : UInt8} {width : Width}
    (sized : ofUInt8? size = some width) : size = width.toUInt8 := by
  unfold ofUInt8? at sized
  cases width <;> grind [toUInt8]

theorem Bytes.offset_le_of_drop {all bytes behind : Bytes} {offset : Nat}
    (stands : all.drop offset = bytes ++ behind) (nonempty : bytes ≠ []) :
    offset ≤ all.length := by
  rcases Nat.lt_or_ge all.length offset with outside | inside
  · rw [List.drop_eq_nil_of_le (Nat.le_of_lt outside)] at stands
    exact absurd stands.symm (List.append_ne_nil_of_left_ne_nil nonempty behind)
  · exact inside

namespace Cursor

theorem after_nil {cursor : Cursor} {bytes : Bytes} (ahead : cursor.rest = bytes) :
    cursor.after [] bytes = cursor := by
  rw [← ahead]
  rfl

@[simp] theorem after_after (cursor : Cursor) (first second suffix suffix' : Bytes) :
    (cursor.after first suffix).after second suffix' = cursor.after (first ++ second) suffix' := by
  simp [after, Nat.add_assoc]

@[simp] theorem rest_after (cursor : Cursor) (taken suffix : Bytes) :
    (cursor.after taken suffix).rest = suffix := rfl

@[simp] theorem offset_after (cursor : Cursor) (taken suffix : Bytes) :
    (cursor.after taken suffix).offset = cursor.offset + taken.length := by
  simp [after, offset, Nat.add_assoc]

@[simp] theorem left_after (cursor : Cursor) (taken suffix : Bytes) :
    (cursor.after taken suffix).left = suffix.length := rfl

/-- Two cursors that have come to the same place among the same bytes have taken the same ones. -/
theorem Reaches.eq_after {cursor next other next' : Cursor} {behind : Bytes}
    (reaches : cursor.Reaches next) (reaches' : other.Reaches next')
    (ahead : other.rest = cursor.rest ++ behind) (aheadNext : next'.rest = next.rest ++ behind) :
    ∃ taken, cursor.rest = taken ++ next.rest ∧ next = cursor.after taken next.rest ∧
      next' = other.after taken (next.rest ++ behind) := by
  obtain ⟨taken, split, place⟩ := reaches
  obtain ⟨taken', split', place'⟩ := reaches'
  have same : taken' = taken := by
    rw [ahead, aheadNext, split, List.append_assoc] at split'
    exact (List.append_cancel_right split').symm
  refine ⟨taken, split, place, ?_⟩
  rw [place', same, ← aheadNext]

/-- The later cursor stands right behind the bytes, which the earlier one has ahead. -/
def Passes (cursor : Cursor) (bytes : Bytes) (next : Cursor) : Prop :=
  cursor.rest = bytes ++ next.rest ∧ next = cursor.after bytes next.rest

namespace Passes

variable {cursor middle next : Cursor} {bytes first second : Bytes}

theorem refl (cursor : Cursor) : cursor.Passes [] cursor :=
  ⟨rfl, (after_nil rfl).symm⟩

theorem trans (start : cursor.Passes first middle) (finish : middle.Passes second next) :
    cursor.Passes (first ++ second) next := by
  obtain ⟨firstStands, firstPlace⟩ := start
  obtain ⟨secondStands, secondPlace⟩ := finish
  constructor
  · rw [firstStands, secondStands, List.append_assoc]
  · rw [secondPlace, firstPlace, after_after, rest_after]

theorem offset_eq (passes : cursor.Passes bytes next) :
    next.offset = cursor.offset + bytes.length := by
  rw [passes.2, offset_after]

theorem left_eq (passes : cursor.Passes bytes next) : cursor.left = bytes.length + next.left := by
  unfold left
  rw [passes.1, List.length_append]

end Passes

/-- A window of its own over the bytes that begin at the cursor. -/
def windowOver (cursor : Cursor) (bytes : Bytes) : Cursor where
  source := cursor.source
  origin := cursor.offset
  position := 0
  rest := bytes

def startingAt (source : DebugSection) (offset : Nat) (rest : Bytes) : Cursor where
  source := source
  origin := offset
  position := 0
  rest := rest

@[simp] theorem offset_startingAt (source : DebugSection) (offset : Nat) (rest : Bytes) :
    (startingAt source offset rest).offset = offset := rfl

theorem startAt_eq {source : DebugSection} {bytes : Bytes} {offset : Nat}
    (inside : offset ≤ bytes.length) :
    startAt source bytes offset = .ok (startingAt source offset (bytes.drop offset)) := by
  unfold startAt
  rw [if_pos inside]
  rfl

end Cursor

namespace Decoder

variable {α β σ : Type} {cursor : Cursor} {bytes first second suffix : Bytes} {value : α}

/-- With `bytes` and then `suffix` ahead, exactly `bytes` are taken, and they mean `value`. -/
def Reads (decoder : Decoder α) (cursor : Cursor) (bytes suffix : Bytes) (value : α) : Prop :=
  cursor.rest = bytes ++ suffix → decoder.run cursor = .ok (value, cursor.after bytes suffix)

theorem Reads.run {decoder : Decoder α} (reads : decoder.Reads cursor bytes suffix value)
    (ahead : cursor.rest = bytes ++ suffix) :
    decoder.run cursor = .ok (value, cursor.after bytes suffix) :=
  reads ahead

theorem runAt_of_le {decoder : Decoder α} {source : DebugSection} {all : Bytes} {offset : Nat}
    (inside : offset ≤ all.length) :
    decoder.runAt source all offset =
      (·.1) <$> decoder.run (.startingAt source offset (all.drop offset)) := by
  unfold Decoder.runAt
  rw [Cursor.startAt_eq inside]
  dsimp only [Bind.bind, Except.bind]
  cases decoder.run (.startingAt source offset (all.drop offset)) <;> rfl

theorem Reads.runAt {decoder : Decoder α} {source : DebugSection} {all : Bytes} {offset : Nat}
    (inside : offset ≤ all.length)
    (reads : decoder.Reads (.startingAt source offset (all.drop offset)) bytes suffix value)
    (ahead : all.drop offset = bytes ++ suffix) :
    decoder.runAt source all offset = .ok value := by
  rw [runAt_of_le inside, reads.run ahead]
  rfl

theorem value_map (function : α → β) (decoder : Decoder α) (cursor : Cursor) :
    (·.1) <$> (function <$> decoder).run cursor = function <$> (·.1) <$> decoder.run cursor := by
  rw [run_map]
  cases decoder.run cursor <;> rfl

theorem pure_reads (value : α) : (pure value : Decoder α).Reads cursor [] suffix value := by
  intro ahead
  have stays : cursor.after [] suffix = cursor := Cursor.after_nil ahead
  rw [run_pure, stays]

theorem Reads.run_bind {decoder : Decoder α} {continuation : α → Decoder β}
    (reads : decoder.Reads cursor bytes suffix value) (ahead : cursor.rest = bytes ++ suffix) :
    (decoder >>= continuation).run cursor =
      (continuation value).run (cursor.after bytes suffix) := by
  rw [Decoder.run_bind, reads.run ahead]

theorem Reads.bind {decoder : Decoder α} {continuation : α → Decoder β} {result : β}
    (reads : decoder.Reads cursor first (second ++ suffix) value)
    (readsNext : (continuation value).Reads (cursor.after first (second ++ suffix)) second suffix
      result) :
    (decoder >>= continuation).Reads cursor (first ++ second) suffix result := by
  intro ahead
  rw [reads.run_bind (by rw [ahead, List.append_assoc]), readsNext.run (Cursor.rest_after _ _ _),
    Cursor.after_after]

theorem Reads.bind_nil {decoder : Decoder α} {continuation : α → Decoder β} {result : β}
    (reads : decoder.Reads cursor [] (bytes ++ suffix) value)
    (readsNext : (continuation value).Reads cursor bytes suffix result) :
    (decoder >>= continuation).Reads cursor bytes suffix result := by
  intro ahead
  rw [reads.run_bind (by rw [ahead, List.nil_append]), Cursor.after_nil ahead]
  exact readsNext.run ahead

theorem Reads.bind_last {decoder : Decoder α} {continuation : α → Decoder β} {result : β}
    (reads : decoder.Reads cursor bytes suffix value)
    (readsNext : (continuation value).Reads (cursor.after bytes suffix) [] suffix result) :
    (decoder >>= continuation).Reads cursor bytes suffix result := by
  intro ahead
  rw [reads.run_bind ahead, readsNext.run (Cursor.rest_after _ _ _), Cursor.after_after,
    List.append_nil]

theorem Reads.map {decoder : Decoder α} (reads : decoder.Reads cursor bytes suffix value)
    (function : α → β) : (function <$> decoder).Reads cursor bytes suffix (function value) := by
  intro ahead
  rw [run_map, reads.run ahead]

theorem Reads.mapTo {decoder : Decoder α} {function : α → β} {result : β}
    (reads : decoder.Reads cursor bytes suffix value) (means : function value = result) :
    (function <$> decoder).Reads cursor bytes suffix result :=
  means ▸ reads.map function

theorem offset_reads : offset.Reads cursor [] suffix cursor.offset :=
  fun ahead => pure_reads cursor.offset ahead

theorem cursor_reads : Decoder.cursor.Reads cursor [] suffix cursor :=
  fun ahead => pure_reads cursor ahead

theorem left_reads : left.Reads cursor [] suffix cursor.left :=
  fun ahead => pure_reads cursor.left ahead

theorem lift_reads (value : α) : (lift (.ok value)).Reads cursor [] suffix value :=
  fun ahead => pure_reads value ahead

theorem located_reads {decoder : Decoder α} (reads : decoder.Reads cursor bytes suffix value) :
    decoder.located.Reads cursor bytes suffix (cursor.offset, value) :=
  offset_reads.bind_nil (reads.bind_last (pure_reads _))

theorem take_reads {count : Nat} (length : bytes.length = count) :
    (take count).Reads cursor bytes suffix bytes := by
  intro ahead
  simp only [take, ahead]
  rw [← length, Bytes.splitExactly?_append]

theorem run_take_of_left_lt {count : Nat} (few : cursor.left < count) :
    (take count).run cursor = .error (cursor.error .unexpectedEnd) := by
  simp only [take, Bytes.splitExactly?_eq_none_iff.mpr few]

theorem run_take_of_le_left {count : Nat} (enough : count ≤ cursor.left) :
    (take count).run cursor = .ok (cursor.rest.take count,
      cursor.after (cursor.rest.take count) (cursor.rest.drop count)) := by
  simp only [take, Bytes.splitExactly?, Bytes.hasAtLeast_iff.mpr enough, if_true]

theorem window_reads {count : Nat} (length : bytes.length = count) :
    (window count).Reads cursor bytes suffix (cursor.windowOver bytes) :=
  cursor_reads.bind_nil ((take_reads length).bind_last (pure_reads _))

theorem within_reads {decoder : Decoder α} {inner next : Cursor}
    (outcome : decoder.run inner = .ok (value, next)) :
    (within inner decoder).Reads cursor [] suffix value := by
  unfold within
  rw [outcome]
  exact lift_reads value

theorem skip_reads {count : Nat} (length : bytes.length = count) :
    (skip count).Reads cursor bytes suffix () :=
  (take_reads length).map _

theorem unsignedBytes_reads {count number : Nat} (fits : number < 256 ^ count) :
    (unsignedBytes count).Reads cursor (Bytes.ofNumber count number) suffix number :=
  (take_reads (Bytes.length_ofNumber count number)).mapTo (Bytes.littleEndian_ofNumber fits)

theorem byte_reads (value : UInt8) : byte.Reads cursor [value] suffix value := by
  have written : Bytes.ofNumber 1 value.toNat = [value] := by
    simp only [Bytes.ofNumber, UInt8.ofNat_toNat]
  rw [← written]
  exact (unsignedBytes_reads (by simpa using value.toNat_lt)).mapTo UInt8.ofNat_toNat

theorem signedByte_reads (value : Int8) : signedByte.Reads cursor [value.toUInt8] suffix value :=
  (byte_reads value.toUInt8).mapTo (Int8.toInt8_toUInt8 value)

theorem uint16_reads (value : UInt16) :
    uint16.Reads cursor (Bytes.ofNumber 2 value.toNat) suffix value :=
  (unsignedBytes_reads (by simpa using value.toNat_lt)).mapTo UInt16.ofNat_toNat

theorem uint32_reads (value : UInt32) :
    uint32.Reads cursor (Bytes.ofNumber 4 value.toNat) suffix value :=
  (unsignedBytes_reads (by simpa using value.toNat_lt)).mapTo UInt32.ofNat_toNat

theorem uint32_ofNat_reads {number : Nat} (fits : number < 2 ^ 32) :
    uint32.Reads cursor (Bytes.ofNumber 4 number) suffix (UInt32.ofNat number) :=
  (unsignedBytes_reads (by simpa using fits)).map UInt32.ofNat

theorem uint64_reads (value : UInt64) :
    uint64.Reads cursor (Bytes.ofNumber 8 value.toNat) suffix value :=
  (unsignedBytes_reads (by simpa using value.toNat_lt)).mapTo UInt64.ofNat_toNat

theorem word_reads (width : Width) {value : UInt64} (fits : value.toNat < 256 ^ width.bytes) :
    (word width).Reads cursor (Bytes.ofNumber width.bytes value.toNat) suffix value :=
  (unsignedBytes_reads fits).mapTo UInt64.ofNat_toNat

theorem run_word_of_left_lt {width : Width} (few : cursor.left < width.bytes) :
    (word width).run cursor = .error (cursor.error .unexpectedEnd) := by
  unfold word unsignedBytes
  rw [run_map, run_map, run_take_of_left_lt few]

theorem address_reads (width : Width) {value : UInt64}
    (fits : value.toNat < 256 ^ width.bytes) :
    (address width.toUInt8).Reads cursor (Bytes.ofNumber width.bytes value.toNat) suffix value := by
  rw [address_toUInt8]
  exact word_reads width fits

theorem leb128_reads {meaning : Bytes → Except Leb128.Fault α} {encoding : Bytes}
    (split : Leb128.splitEncoding Leb128.maximumLength (encoding ++ suffix) =
      .ok (encoding, suffix))
    (means : meaning encoding = .ok value) :
    (leb128 meaning).Reads cursor encoding suffix value := by
  intro ahead
  simp only [leb128, ahead, split, means]

theorem unsigned_reads (value : UInt64) :
    unsigned.Reads cursor (Leb128.encodeUnsigned value.toNat) suffix value :=
  leb128_reads (Leb128.split_unsigned value suffix) (Leb128.unsignedValue_encode value)

theorem unsigned_reads_zero : unsigned.Reads cursor [0] suffix 0 := by
  have zero : Leb128.encodeUnsigned (0 : UInt64).toNat = [0] :=
    Leb128.encodeUnsigned_small (by decide)
  rw [← zero]
  exact unsigned_reads 0

theorem unsigned_ofNat_reads {number : Nat} (fits : number < 2 ^ 64) :
    unsigned.Reads cursor (Leb128.encodeUnsigned number) suffix (UInt64.ofNat number) := by
  have read : unsigned.Reads cursor (Leb128.encodeUnsigned (UInt64.ofNat number).toNat) suffix
      (UInt64.ofNat number) := unsigned_reads _
  rwa [UInt64.toNat_ofNat_of_lt' fits] at read

theorem count_reads (start : Nat) (number : UInt64) :
    (count start number).Reads cursor [] suffix number.toNat := by
  rw [count_eq]
  exact pure_reads _

theorem length_reads {number : Nat} (fits : number < 2 ^ 64) :
    length.Reads cursor (Leb128.encodeUnsigned number) suffix number := by
  rw [length_eq]
  exact (unsigned_ofNat_reads fits).mapTo (UInt64.toNat_ofNat_of_lt' fits)

theorem signed_reads (value : Int64) :
    signed.Reads cursor (Leb128.encodeSigned value.toInt) suffix value :=
  leb128_reads (Leb128.split_signed value suffix) (Leb128.signedValue_encode value)

theorem unsigned_reads_encoding {value : UInt64}
    (decodes : Leb128.decodeUnsigned bytes = .ok (value, bytes.length)) :
    unsigned.Reads cursor bytes suffix value := by
  obtain ⟨split, means⟩ := Leb128.split_of_whole decodes suffix
  exact leb128_reads split means

theorem unsigned_reads_number {number : UInt64}
    (encodes : Leb128.EncodesUnsigned bytes number.toNat) :
    unsigned.Reads cursor bytes suffix number := by
  obtain ⟨value, decodes, same⟩ := encodes
  cases UInt64.toNat_inj.mp same
  exact unsigned_reads_encoding decodes

theorem length_reads_number {number : Nat} (encodes : Leb128.EncodesUnsigned bytes number) :
    length.Reads cursor bytes suffix number := by
  obtain ⟨value, decodes, same⟩ := encodes
  rw [length_eq]
  exact (unsigned_reads_encoding decodes).mapTo same

theorem signed_reads_encoding {value : Int64}
    (decodes : Leb128.decodeSigned bytes = .ok (value, bytes.length)) :
    signed.Reads cursor bytes suffix value := by
  obtain ⟨split, means⟩ := Leb128.split_of_whole decodes suffix
  exact leb128_reads split means

theorem terminated_reads {text : Bytes} (clean : 0 ∉ text) :
    terminated.Reads cursor (text ++ [0]) suffix text := by
  intro ahead
  have split : Bytes.splitAtZero? cursor.rest = some (text, suffix) := by
    rw [ahead, List.append_assoc]
    exact Bytes.splitAtZero?_append clean suffix
  simp only [terminated, split]

theorem lossyText_reads (clean : 0 ∉ bytes) :
    text.Reads cursor (bytes ++ [0]) suffix (Utf8.lossyText bytes) :=
  (terminated_reads clean).map Utf8.lossyText

theorem text_reads {text : String} (clean : '\x00' ∉ text.toList) :
    Decoder.text.Reads cursor (Utf8.encode text ++ [0]) suffix text :=
  (terminated_reads (Utf8.zero_notMem_encode clean)).mapTo (Utf8.lossyText_encode text)

theorem initialLength_reads {length : Nat} (below : length < 0xfffffff0) :
    initialLength.Reads cursor (Bytes.ofNumber 4 length) suffix length := by
  have number : (UInt32.ofNat length).toNat = length :=
    UInt32.toNat_ofNat_of_lt' (Nat.lt_trans below (by decide))
  have admitted : UInt32.ofNat length < lengthEscape := by
    rw [UInt32.lt_iff_toNat_lt, number]
    exact below
  apply (located_reads (uint32_ofNat_reads (Nat.lt_trans below (by decide)))).bind_last
  dsimp only
  rw [if_pos admitted, number]
  exact pure_reads length

theorem version_reads (start : Nat) (version : Version) :
    (Decoder.version start).Reads cursor (Bytes.ofNumber 2 version.number.toNat) suffix
      version := by
  apply (uint16_reads version.number).bind_last
  rw [Version.ofNumber?_number]
  exact pure_reads version

theorem checkedWidth_reads (start : Nat) (width : Width) :
    (checkedWidth start width.toUInt8).Reads cursor [] suffix width := by
  unfold checkedWidth
  rw [Width.ofUInt8?_toUInt8]
  exact pure_reads width

theorem addressWidth_reads (width : Width) :
    addressWidth.Reads cursor [width.toUInt8] suffix width :=
  (located_reads (byte_reads width.toUInt8)).bind_last (checkedWidth_reads _ width)

/-! Conversely, what has been taken from the front of what was left. -/

section Taken

variable {next : Cursor}

theorem take_of_run {count : Nat} {bytes : Bytes}
    (outcome : (take count).run cursor = .ok (bytes, next)) :
    bytes.length = count ∧ cursor.Passes bytes next := by
  simp only [take] at outcome
  split at outcome <;> cases outcome
  rename_i split
  obtain ⟨stands, length⟩ := Bytes.splitExactly?_sound split
  exact ⟨length, stands, rfl⟩

theorem unsignedBytes_of_run {count number : Nat}
    (outcome : (unsignedBytes count).run cursor = .ok (number, next)) :
    cursor.Passes (Bytes.ofNumber count number) next ∧ number < 256 ^ count := by
  unfold unsignedBytes at outcome
  rw [run_map] at outcome
  split at outcome <;> cases outcome
  rename_i bytes taken
  obtain ⟨length, passes⟩ := take_of_run taken
  rw [← length, Bytes.ofNumber_littleEndian]
  exact ⟨passes, Bytes.littleEndian_lt bytes⟩

theorem byte_of_run {value : UInt8} (outcome : byte.run cursor = .ok (value, next)) :
    cursor.Passes [value] next := by
  unfold byte at outcome
  rw [run_map] at outcome
  split at outcome <;> cases outcome
  rename_i number _ taken
  exact (unsignedBytes_of_run taken).1

theorem uint16_of_run {value : UInt16} (outcome : uint16.run cursor = .ok (value, next)) :
    cursor.Passes (Bytes.ofNumber 2 value.toNat) next := by
  unfold uint16 at outcome
  rw [run_map] at outcome
  split at outcome <;> cases outcome
  rename_i number _ taken
  obtain ⟨passes, fits⟩ := unsignedBytes_of_run taken
  rwa [UInt16.toNat_ofNat_of_lt' (by simpa using fits)]

theorem uint32_of_run {value : UInt32} (outcome : uint32.run cursor = .ok (value, next)) :
    cursor.Passes (Bytes.ofNumber 4 value.toNat) next := by
  unfold uint32 at outcome
  rw [run_map] at outcome
  split at outcome <;> cases outcome
  rename_i number _ taken
  obtain ⟨passes, fits⟩ := unsignedBytes_of_run taken
  rwa [UInt32.toNat_ofNat_of_lt' (by simpa using fits)]

theorem word_of_run {width : Width} {value : UInt64}
    (outcome : (word width).run cursor = .ok (value, next)) :
    cursor.Passes (Bytes.ofNumber width.bytes value.toNat) next ∧
      value.toNat < 256 ^ width.bytes := by
  unfold word at outcome
  rw [run_map] at outcome
  split at outcome <;> cases outcome
  rename_i taken
  obtain ⟨passes, fits⟩ := unsignedBytes_of_run taken
  have room : 256 ^ width.bytes ≤ 2 ^ 64 := by cases width <;> decide
  rw [UInt64.toNat_ofNat_of_lt' (Nat.lt_of_lt_of_le fits room)]
  exact ⟨passes, fits⟩

theorem skip_of_run {count : Nat} {value : Unit}
    (outcome : (skip count).run cursor = .ok (value, next)) :
    ∃ bytes : Bytes, bytes.length = count ∧ cursor.Passes bytes next := by
  unfold skip at outcome
  rw [run_map] at outcome
  split at outcome <;> cases outcome
  rename_i bytes taken
  obtain ⟨length, passes⟩ := take_of_run taken
  exact ⟨bytes, length, passes⟩

theorem checkedWidth_of_run {start : Nat} {size : UInt8} {width : Width}
    (outcome : (checkedWidth start size).run cursor = .ok (width, next)) :
    size = width.toUInt8 ∧ next = cursor := by
  unfold checkedWidth at outcome
  split at outcome <;> cases outcome
  rename_i sized
  exact ⟨Width.toUInt8_of_ofUInt8? sized, rfl⟩

theorem addressWidth_of_run {width : Width}
    (outcome : addressWidth.run cursor = .ok (width, next)) :
    cursor.Passes [width.toUInt8] next := by
  obtain ⟨⟨start, size⟩, middle, located, checks⟩ := run_bind_eq_ok.mp outcome
  obtain ⟨rfl, rfl⟩ := checkedWidth_of_run checks
  obtain ⟨_, _, here, located⟩ := run_bind_eq_ok.mp located
  cases here
  obtain ⟨_, _, reads, finish⟩ := run_bind_eq_ok.mp located
  cases finish
  exact byte_of_run reads

theorem address_of_run {size : UInt8} {value : UInt64}
    (outcome : (address size).run cursor = .ok (value, next)) :
    ∃ width bytes, Width.ofUInt8? size = some width ∧ bytes.length = width.bytes ∧
      value = UInt64.ofNat (Bytes.littleEndian bytes) ∧ cursor.rest = bytes ++ next.rest := by
  unfold address at outcome
  split at outcome
  · rename_i width sized
    unfold word unsignedBytes at outcome
    rw [run_map, run_map] at outcome
    split at outcome <;> cases outcome
    rename_i taken
    split at taken <;> cases taken
    rename_i bytes taken
    obtain ⟨length, stands, _⟩ := take_of_run taken
    exact ⟨width, bytes, sized, length, rfl, stands⟩
  · cases outcome

theorem unsigned_of_run {value : UInt64} (outcome : unsigned.run cursor = .ok (value, next)) :
    ∃ encoding, Leb128.EncodesUnsigned encoding value.toNat ∧ cursor.Passes encoding next := by
  simp only [unsigned, leb128] at outcome
  split at outcome
  · cases outcome
  · cases outcome
  · rename_i encoding suffix split
    split at outcome <;> cases outcome
    rename_i means
    exact ⟨encoding, Leb128.encodesUnsigned_of_split split means,
      (Leb128.splitEncoding_sound split).1, rfl⟩

theorem length_of_run {number : Nat} (outcome : length.run cursor = .ok (number, next)) :
    ∃ encoding, Leb128.EncodesUnsigned encoding number ∧ cursor.Passes encoding next := by
  rw [length_eq, run_map] at outcome
  split at outcome <;> cases outcome
  rename_i reads
  exact unsigned_of_run reads

theorem terminated_of_run {text : Bytes} (outcome : terminated.run cursor = .ok (text, next)) :
    0 ∉ text ∧ cursor.rest = text ++ [0] ++ next.rest := by
  simp only [terminated] at outcome
  split at outcome <;> cases outcome
  rename_i suffix split
  obtain ⟨stands, clean⟩ := Bytes.splitAtZero?_sound split
  exact ⟨clean, by rw [stands, List.append_assoc]; rfl⟩

theorem initialLength_of_run {length : Nat}
    (outcome : initialLength.run cursor = .ok (length, next)) :
    length < 0xfffffff0 ∧ cursor.Passes (Bytes.ofNumber 4 length) next := by
  obtain ⟨⟨start, word⟩, middle, reads, checks⟩ := run_bind_eq_ok.mp outcome
  obtain ⟨_, _, here, reads⟩ := run_bind_eq_ok.mp reads
  cases here
  obtain ⟨_, _, reads, finish⟩ := run_bind_eq_ok.mp reads
  cases finish
  dsimp only at checks
  split at checks
  · rename_i admitted
    cases checks
    exact ⟨UInt32.lt_iff_toNat_lt.mp admitted, uint32_of_run reads⟩
  · cases checks

theorem window_of_run {length : Nat} {window : Cursor}
    (outcome : (Decoder.window length).run cursor = .ok (window, next)) :
    ∃ bytes : Bytes, bytes.length = length ∧ window = cursor.windowOver bytes ∧
      cursor.Passes bytes next := by
  obtain ⟨_, _, here, reads⟩ := run_bind_eq_ok.mp outcome
  cases here
  obtain ⟨bytes, _, taken, finish⟩ := run_bind_eq_ok.mp reads
  cases finish
  obtain ⟨length, passes⟩ := take_of_run taken
  exact ⟨bytes, length, rfl, passes⟩

theorem within_of_run {decoder : Decoder α} {window : Cursor} {value : α}
    (outcome : (within window decoder).run cursor = .ok (value, next)) :
    next = cursor ∧ ∃ final, decoder.run window = .ok (value, final) := by
  unfold within lift at outcome
  cases inner : decoder.run window with
  | error error =>
      rw [inner] at outcome
      cases outcome
  | ok result =>
      rw [inner] at outcome
      cases outcome
      exact ⟨rfl, _, rfl⟩

end Taken

end Decoder

end Symbolication
