import Mathlib.Algebra.Group.Int.Defs
import Mathlib.Algebra.Group.Nat.Defs
import Symbolication.Leb128

/-!
Numbers written in base 128, in as few groups as their value needs. Reading gives the number back
and stops at its last group, whatever follows it.
-/

namespace Symbolication.Leb128

def continued (group : Nat) : UInt8 := UInt8.ofNat (group + 128)

def encodeUnsigned (value : Nat) : Bytes :=
  if value < 128 then [UInt8.ofNat value]
  else continued (value % 128) :: encodeUnsigned (value / 128)
termination_by value

/-- The last group is the first one whose sign bit is the sign of all that is left. -/
def encodeSigned (value : Int) : Bytes :=
  if -64 ≤ value ∧ value < 64 then [UInt8.ofNat (value % 128).toNat]
  else continued (value % 128).toNat :: encodeSigned (value / 128)
termination_by value.natAbs
decreasing_by omega

theorem toNat_continued {group : Nat} (bound : group < 128) :
    (continued group).toNat = group + 128 := by
  unfold continued
  rw [UInt8.toNat_ofNat']
  omega

theorem toNat_last {group : Nat} (bound : group < 128) : (UInt8.ofNat group).toNat = group := by
  rw [UInt8.toNat_ofNat']
  omega

theorem continued_not_lt {group : Nat} (bound : group < 128) : ¬continued group < 128 := by
  rw [UInt8.lt_iff_toNat_lt, toNat_continued bound]
  exact Nat.not_lt.mpr (Nat.le_add_left 128 _)

theorem last_lt {group : Nat} (bound : group < 128) : UInt8.ofNat group < 128 := by
  rw [UInt8.lt_iff_toNat_lt, toNat_last bound]
  exact bound

theorem splitEncoding_last {group limit : Nat} (bound : group < 128) (suffix : Bytes) :
    splitEncoding (limit + 1) (UInt8.ofNat group :: suffix) =
      .ok ([UInt8.ofNat group], suffix) := by
  rw [splitEncoding, if_pos (last_lt bound)]

theorem splitEncoding_continued {group limit : Nat} (bound : group < 128)
    {bytes encoding suffix : Bytes} (split : splitEncoding limit bytes = .ok (encoding, suffix)) :
    splitEncoding (limit + 1) (continued group :: bytes) =
      .ok (continued group :: encoding, suffix) := by
  rw [splitEncoding, if_neg (continued_not_lt bound), split]

/-- Bytes behind a number are not looked at. -/
theorem splitEncoding_append {limit : Nat} {bytes encoding suffix : Bytes}
    (split : splitEncoding limit bytes = .ok (encoding, suffix)) (behind : Bytes) :
    splitEncoding limit (bytes ++ behind) = .ok (encoding, suffix ++ behind) := by
  induction limit generalizing bytes encoding with
  | zero => cases bytes <;> simp [splitEncoding] at split
  | succ limit induction =>
      cases bytes with
      | nil => simp [splitEncoding] at split
      | cons byte rest =>
          simp only [splitEncoding, List.cons_append] at split ⊢
          split at split
          · rename_i last
            cases split
            rw [if_pos last]
          · rename_i more
            split at split
            · cases split
            · rename_i inner tail innerSplit
              cases split
              rw [if_neg more, induction innerSplit]

/-- What has been split off is an encoding on its own. -/
theorem splitEncoding_alone {limit : Nat} {bytes encoding suffix : Bytes}
    (split : splitEncoding limit bytes = .ok (encoding, suffix)) :
    splitEncoding limit encoding = .ok (encoding, []) := by
  induction limit generalizing bytes encoding with
  | zero => cases bytes <;> simp [splitEncoding] at split
  | succ limit induction =>
      cases bytes with
      | nil => simp [splitEncoding] at split
      | cons byte rest =>
          simp only [splitEncoding] at split
          split at split
          · rename_i last
            cases split
            rw [splitEncoding, if_pos last]
          · rename_i more
            split at split
            · cases split
            · rename_i inner tail innerSplit
              cases split
              rw [splitEncoding, if_neg more, induction innerSplit]

theorem splitEncoding_overflow_append {limit : Nat} {bytes : Bytes}
    (split : splitEncoding limit bytes = .error .overflow) (behind : Bytes) :
    splitEncoding limit (bytes ++ behind) = .error .overflow := by
  induction limit generalizing bytes with
  | zero =>
      cases bytes with
      | nil => simp [splitEncoding] at split
      | cons byte rest => rfl
  | succ limit induction =>
      cases bytes with
      | nil => simp [splitEncoding] at split
      | cons byte rest =>
          simp only [splitEncoding, List.cons_append] at split ⊢
          split at split
          · cases split
          · rename_i more
            split at split
            · rename_i fault innerSplit
              cases split
              rw [if_neg more, induction innerSplit]
            · cases split

/-- Whether the bytes begin with a number that is too long, or whose value does not fit. -/
def Overflows (bytes : Bytes) : Prop :=
  decodeUnsigned bytes = .error .overflow ∨ decodeSigned bytes = .error .overflow

theorem bind_overflow_append {α : Type} {meaning : Bytes × Bytes → Except Fault α} {bytes : Bytes}
    (same : ∀ encoding suffix behind,
      meaning (encoding, suffix ++ behind) = meaning (encoding, suffix))
    (overflow : (splitEncoding maximumLength bytes >>= meaning) = .error .overflow)
    (behind : Bytes) :
    (splitEncoding maximumLength (bytes ++ behind) >>= meaning) = .error .overflow := by
  cases split : splitEncoding maximumLength bytes with
  | error fault =>
      rw [split] at overflow
      cases overflow
      rw [splitEncoding_overflow_append split]
      rfl
  | ok parts =>
      obtain ⟨encoding, suffix⟩ := parts
      rw [split] at overflow
      rw [splitEncoding_append split]
      exact (same encoding suffix behind).trans overflow

theorem Overflows.append {bytes : Bytes} (overflows : Overflows bytes) (behind : Bytes) :
    Overflows (bytes ++ behind) := by
  rcases overflows with unsigned | signed
  · exact .inl (bind_overflow_append (fun _ _ _ => rfl) unsigned behind)
  · exact .inr (bind_overflow_append (fun _ _ _ => rfl) signed behind)

theorem splitEncoding_encodeUnsigned (limit value : Nat) (fits : value < 128 ^ (limit + 1))
    (suffix : Bytes) :
    splitEncoding (limit + 1) (encodeUnsigned value ++ suffix) =
      .ok (encodeUnsigned value, suffix) := by
  induction limit generalizing value with
  | zero =>
      rw [encodeUnsigned, if_pos (by simpa using fits)]
      exact splitEncoding_last (by simpa using fits) suffix
  | succ limit induction =>
      rw [encodeUnsigned]
      split
      · rename_i small
        exact splitEncoding_last small suffix
      · have quotientFits : value / 128 < 128 ^ (limit + 1) := by
          rw [Nat.pow_succ] at fits
          omega
        exact splitEncoding_continued (Nat.mod_lt value (by decide))
          (induction (value / 128) quotientFits)

theorem length_encodeUnsigned_le (limit value : Nat) (fits : value < 128 ^ (limit + 1)) :
    (encodeUnsigned value).length ≤ limit + 1 := by
  induction limit generalizing value with
  | zero =>
      rw [encodeUnsigned, if_pos (by simpa using fits)]
      simp
  | succ limit induction =>
      rw [encodeUnsigned]
      split
      · simp
      · have quotientFits : value / 128 < 128 ^ (limit + 1) := by
          rw [Nat.pow_succ] at fits
          omega
        have shorter := induction (value / 128) quotientFits
        rw [List.length_cons]
        omega

theorem groupSum_encodeUnsigned (value : Nat) : groupSum (encodeUnsigned value) = value := by
  induction value using Nat.strongRecOn with
  | ind value induction =>
      rw [encodeUnsigned]
      split
      · rename_i small
        rw [groupSum, groupSum, toNat_last small]
        omega
      · have group := toNat_continued (Nat.mod_lt value (by decide : 0 < 128))
        rw [groupSum, group, induction (value / 128) (by omega)]
        omega

theorem unsignedValue_encode (value : UInt64) :
    unsignedValue (encodeUnsigned value.toNat) = .ok value := by
  unfold unsignedValue
  rw [groupSum_encodeUnsigned, if_pos value.toNat_lt_size, UInt64.ofNat_toNat]

theorem split_unsigned (value : UInt64) (suffix : Bytes) :
    splitEncoding maximumLength (encodeUnsigned value.toNat ++ suffix) =
      .ok (encodeUnsigned value.toNat, suffix) := by
  apply splitEncoding_encodeUnsigned
  have bound := value.toNat_lt_size
  have room : UInt64.size ≤ 128 ^ (17 + 1) := by decide
  omega

theorem encodeUnsigned_ne_nil (value : Nat) : encodeUnsigned value ≠ [] := by
  rw [encodeUnsigned]
  split <;> simp

theorem encodeUnsigned_small {value : Nat} (small : value < 128) :
    encodeUnsigned value = [UInt8.ofNat value] := by
  rw [encodeUnsigned, if_pos small]

theorem encodeSigned_ne_nil (value : Int) : encodeSigned value ≠ [] := by
  rw [encodeSigned]
  split <;> simp

theorem splitEncoding_encodeSigned (limit : Nat) (value : Int)
    (above : -64 * 128 ^ limit ≤ value) (below : value < 64 * 128 ^ limit) (suffix : Bytes) :
    splitEncoding (limit + 1) (encodeSigned value ++ suffix) =
      .ok (encodeSigned value, suffix) := by
  induction limit generalizing value with
  | zero =>
      rw [encodeSigned, if_pos (by simpa using ⟨above, below⟩)]
      exact splitEncoding_last (by omega) suffix
  | succ limit induction =>
      rw [encodeSigned]
      split
      · exact splitEncoding_last (by omega) suffix
      · rw [Int.pow_succ] at above below
        exact splitEncoding_continued (by omega)
          (induction (value / 128) (by omega) (by omega))

theorem signedSum_cons (byte : UInt8) {rest : Bytes} (more : rest ≠ []) :
    signedSum (byte :: rest) = ((byte.toNat % 128 : Nat) : Int) + 128 * signedSum rest := by
  have sign : isNegative (byte :: rest) = isNegative rest := by
    unfold isNegative
    rw [List.getLast?_cons_of_ne_nil more]
  unfold signedSum
  rw [sign, groupSum, List.length_cons]
  split
  · change ((byte.toNat % 128 + 128 * groupSum rest : Nat) : Int) -
      ((128 ^ (rest.length + 1) : Nat) : Int) = _
    rw [Nat.pow_succ]
    push_cast
    change _ = _ + 128 * ((groupSum rest : Int) - ((128 ^ rest.length : Nat) : Int))
    push_cast
    omega
  · omega

theorem signedSum_last {value : Int} (above : -64 ≤ value) (below : value < 64) :
    signedSum [UInt8.ofNat (value % 128).toNat] = value := by
  have group := toNat_last (show (value % 128).toNat < 128 by omega)
  unfold signedSum isNegative
  simp only [List.getLast?_singleton, group, groupSum, List.length_singleton]
  change (if decide (64 ≤ (value % 128).toNat % 128) = true
    then (((value % 128).toNat % 128 + 128 * 0 : Nat) : Int) - ((128 ^ 1 : Nat) : Int)
    else _) = value
  split
  · rename_i negative
    rw [decide_eq_true_eq] at negative
    omega
  · rename_i positive
    rw [decide_eq_true_eq] at positive
    omega

theorem signedSum_encodeSigned (value : Int) : signedSum (encodeSigned value) = value := by
  induction size : value.natAbs using Nat.strongRecOn generalizing value with
  | ind bound induction =>
      rw [encodeSigned]
      split
      · rename_i small
        exact signedSum_last small.1 small.2
      · have group := toNat_continued (show (value % 128).toNat < 128 by omega)
        have smaller : (value / 128).natAbs < bound := by omega
        rw [signedSum_cons _ (encodeSigned_ne_nil _), group,
          induction _ smaller (value / 128) rfl]
        omega

theorem signedValue_encode (value : Int64) :
    signedValue (encodeSigned value.toInt) = .ok value := by
  have above := Int64.minValue_le_toInt value
  have below := Int64.toInt_le value
  unfold signedValue
  rw [signedSum_encodeSigned, if_pos ⟨above, below⟩, Int64.ofInt_toInt]

theorem split_signed (value : Int64) (suffix : Bytes) :
    splitEncoding maximumLength (encodeSigned value.toInt ++ suffix) =
      .ok (encodeSigned value.toInt, suffix) := by
  have above := Int64.minValue_le_toInt value
  have below := Int64.toInt_le value
  -- Ten groups would do, and eighteen are accepted.
  apply splitEncoding_encodeSigned 17 value.toInt
  · have room : (-64 * 128 ^ 17 : Int) ≤ Int64.minValue.toInt := by decide
    omega
  · have room : Int64.maxValue.toInt < (64 * 128 ^ 17 : Int) := by decide
    omega

/-- Whether the bytes are an encoding of the number, with or without redundant groups. -/
def EncodesUnsigned (bytes : Bytes) (number : Nat) : Prop :=
  ∃ value, decodeUnsigned bytes = .ok (value, bytes.length) ∧ value.toNat = number

def EncodesSigned (bytes : Bytes) (number : Int) : Prop :=
  ∃ value, decodeSigned bytes = .ok (value, bytes.length) ∧ value.toInt = number

theorem EncodesUnsigned.ne_nil {bytes : Bytes} {number : Nat}
    (encodes : EncodesUnsigned bytes number) : bytes ≠ [] := by
  rintro rfl
  obtain ⟨value, decodes, _⟩ := encodes
  cases decodes

theorem encodesUnsigned_of_split {bytes encoding suffix : Bytes} {value : UInt64}
    (split : splitEncoding maximumLength bytes = .ok (encoding, suffix))
    (means : unsignedValue encoding = .ok value) : EncodesUnsigned encoding value.toNat := by
  refine ⟨value, ?_, rfl⟩
  unfold decodeUnsigned
  rw [splitEncoding_alone split]
  change (unsignedValue encoding >>= fun value => .ok (value, encoding.length)) = _
  rw [means]
  rfl

theorem split_of_whole {α : Type} {meaning : Bytes → Except Fault α} {bytes : Bytes} {value : α}
    (decodes : (do
      let (encoding, _) ← splitEncoding maximumLength bytes
      let value ← meaning encoding
      .ok (value, encoding.length)) = .ok (value, bytes.length)) (suffix : Bytes) :
    splitEncoding maximumLength (bytes ++ suffix) = .ok (bytes, suffix) ∧
      meaning bytes = .ok value := by
  cases split : splitEncoding maximumLength bytes with
  | error fault =>
      rw [split] at decodes
      cases decodes
  | ok parts =>
      obtain ⟨encoding, others⟩ := parts
      rw [split] at decodes
      change (meaning encoding >>= fun value => .ok (value, encoding.length)) = _ at decodes
      cases means : meaning encoding with
      | error fault =>
          rw [means] at decodes
          cases decodes
      | ok value' =>
          rw [means] at decodes
          injection decodes with same
          injection same with sameValue sameLength
          obtain ⟨parts, _⟩ := splitEncoding_sound split
          have nothing : others = [] := by
            rw [parts, List.length_append] at sameLength
            exact List.length_eq_zero_iff.mp (by omega)
          rw [nothing, List.append_nil] at parts
          rw [nothing, ← parts] at split
          rw [← parts, sameValue] at means
          exact ⟨splitEncoding_append split suffix, means⟩

/-- Whether the bytes have the shape of one number: no more of them than are accepted, and only the
last one below 128. Its groups may be redundant. -/
def Framed (bytes : Bytes) : Prop :=
  ∃ groups last, bytes = groups ++ [last] ∧ groups.length < maximumLength ∧
    (∀ group ∈ groups, 128 ≤ group) ∧ last < 128

theorem splitEncoding_groups {limit : Nat} {groups : Bytes} {last : UInt8}
    (room : groups.length < limit) (continues : ∀ group ∈ groups, 128 ≤ group) (ends : last < 128)
    (suffix : Bytes) :
    splitEncoding limit (groups ++ last :: suffix) = .ok (groups ++ [last], suffix) := by
  induction groups generalizing limit with
  | nil =>
      obtain ⟨limit, rfl⟩ := Nat.exists_eq_add_one.mpr room
      rw [List.nil_append, splitEncoding, if_pos ends, List.nil_append]
  | cons group groups induction =>
      obtain ⟨limit, rfl⟩ := Nat.exists_eq_add_one.mpr (Nat.zero_lt_of_lt room)
      rw [List.forall_mem_cons] at continues
      rw [List.length_cons] at room
      rw [List.cons_append, splitEncoding, if_neg (UInt8.not_lt.mpr continues.1),
        induction (Nat.lt_of_succ_lt_succ room) continues.2]
      rfl

theorem Framed.split {bytes : Bytes} (framed : Framed bytes) :
    splitEncoding maximumLength bytes = .ok (bytes, []) := by
  obtain ⟨groups, last, rfl, room, continues, ends⟩ := framed
  exact splitEncoding_groups room continues ends []

theorem Framed.encodesUnsigned {bytes : Bytes} {number : Nat} (framed : Framed bytes)
    (sum : groupSum bytes = number) (fits : number < 2 ^ 64) : EncodesUnsigned bytes number := by
  refine ⟨UInt64.ofNat number, ?_, UInt64.toNat_ofNat_of_lt' fits⟩
  have means : unsignedValue bytes = .ok (UInt64.ofNat number) := by
    unfold unsignedValue
    rw [sum, if_pos (show number < UInt64.size from fits)]
  unfold decodeUnsigned
  rw [framed.split]
  change (unsignedValue bytes >>= fun value => .ok (value, bytes.length)) = _
  rw [means]
  rfl

theorem Framed.encodesSigned {bytes : Bytes} {number : Int} (framed : Framed bytes)
    (sum : signedSum bytes = number) (above : -2 ^ 63 ≤ number) (below : number < 2 ^ 63) :
    EncodesSigned bytes number := by
  refine ⟨Int64.ofInt number, ?_, Int64.toInt_ofInt_of_le above below⟩
  have means : signedValue bytes = .ok (Int64.ofInt number) := by
    have least : Int64.minValue.toInt = -2 ^ 63 := rfl
    have greatest : Int64.maxValue.toInt = 2 ^ 63 - 1 := rfl
    unfold signedValue
    rw [sum, if_pos (by omega)]
  unfold decodeSigned
  rw [framed.split]
  change (signedValue bytes >>= fun value => .ok (value, bytes.length)) = _
  rw [means]
  rfl

end Symbolication.Leb128
