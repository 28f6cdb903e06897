import Symbolication.Proofs.Encoding.Groups

/-!
Unsigned numbers in base 128, whatever the bytes are. What is read is decided by the first byte
below 128 and by the sum of the groups up to it; so every way to write a number of 64 bits in at
most eighteen groups is read as that number, and no larger number is taken for a smaller one.
-/

namespace Symbolication.Leb128

/-- The number of a word that groups were collected in, if it fits in 64 bits. -/
def Collected.unsigned (collected : Collected) : Except Fault (UInt64 × Nat) :=
  if collected.word.toNat < 2 ^ 64 then
    .ok (.ofBitVec (collected.word.setWidth 64), collected.count)
  else .error .overflow

theorem decodeUnsigned_eq (bytes : Bytes) :
    decodeUnsigned bytes =
      match bytes.findIdx? (· < 128) with
      | some last =>
          if 17 < last then .error .overflow
          else if sumUpTo bytes last < 2 ^ 64 then
            .ok (UInt64.ofNat (sumUpTo bytes last), last + 1)
          else .error .overflow
      | none => if bytes.length ≤ 18 then .error .truncated else .error .overflow := by
  unfold decodeUnsigned
  rw [splitEncoding_eq]
  unfold maximumLength
  cases place : bytes.findIdx? (· < 128) with
  | none =>
      dsimp only
      split <;> rfl
  | some last =>
      dsimp only
      by_cases many : 17 < last
      · rw [if_pos many, if_neg (by omega)]
        rfl
      · have inside : last < bytes.length := (List.findIdx?_eq_some_iff_getElem.mp place).1
        have length : (bytes.take (last + 1)).length = last + 1 := List.length_take_of_le inside
        rw [if_neg many, if_pos (by omega)]
        change (unsignedValue (bytes.take (last + 1)) >>= fun value =>
          .ok (value, (bytes.take (last + 1)).length)) = _
        unfold unsignedValue
        rw [groupSum_take inside, length]
        by_cases fits : sumUpTo bytes last < 2 ^ 64
        · rw [if_pos fits, if_pos (show _ < UInt64.size from fits)]
          rfl
        · rw [if_neg fits, if_neg (show ¬_ < UInt64.size from fits)]
          rfl

/-- Collecting the groups in a word loses nothing of them. -/
theorem decodeUnsigned_eq_collect (bytes : Bytes) :
    decodeUnsigned bytes = collect 0 0 bytes >>= Collected.unsigned := by
  unfold decodeUnsigned
  cases split : splitEncoding maximumLength bytes with
  | error fault =>
      rw [collect_of_fault (Nat.zero_le _) split]
      rfl
  | ok parts =>
      obtain ⟨encoding, suffix⟩ := parts
      have empty : (0 : BitVec 128).toNat < 128 ^ 0 := by decide
      obtain ⟨collected, collects, value, count, -⟩ :=
        collect_of_split (Nat.zero_le _) empty split
      have sum : collected.word.toNat = groupSum encoding := by simpa using value
      have number : collected.count = encoding.length := by simpa using count
      rw [collects]
      change (unsignedValue encoding >>= fun value => .ok (value, encoding.length)) =
        collected.unsigned
      unfold unsignedValue Collected.unsigned
      rw [sum, number]
      by_cases fits : groupSum encoding < 2 ^ 64
      · have same : UInt64.ofNat (groupSum encoding) = .ofBitVec (collected.word.setWidth 64) := by
          apply UInt64.toNat_inj.mp
          rw [UInt64.toNat_ofNat_of_lt' fits, UInt64.toNat_ofBitVec, BitVec.toNat_setWidth, sum,
            Nat.mod_eq_of_lt fits]
        rw [if_pos fits, if_pos (show _ < UInt64.size from fits), same]
        rfl
      · rw [if_neg fits, if_neg (show ¬_ < UInt64.size from fits)]
        rfl

theorem findIdx?_encodeUnsigned (number : Nat) :
    (encodeUnsigned number).findIdx? (· < 128) = some ((encodeUnsigned number).length - 1) := by
  induction number using Nat.strongRecOn with
  | ind number induction =>
      rw [encodeUnsigned]
      split
      · rename_i small
        exact findIdx?_last small
      · exact findIdx?_continued (Nat.mod_lt number (by decide)) (encodeUnsigned_ne_nil _)
          (induction _ (by omega))

/-- How a number is read that is written with redundant groups, and with other bytes behind it. -/
theorem decodeUnsigned_padded (number count : Nat) (suffix : Bytes) :
    decodeUnsigned (padded 0 (encodeUnsigned number) count ++ suffix) =
      if (padded 0 (encodeUnsigned number) count).length ≤ 18 ∧ number < 2 ^ 64 then
        .ok (UInt64.ofNat number, (padded 0 (encodeUnsigned number) count).length)
      else .error .overflow := by
  have positive := List.length_pos_of_ne_nil (encodeUnsigned_ne_nil number)
  have length := length_padded 0 (encodeUnsigned number) count
  have last : (encodeUnsigned number).length + count - 1 + 1 =
      (padded 0 (encodeUnsigned number) count).length := by omega
  have sum : sumUpTo (padded 0 (encodeUnsigned number) count ++ suffix)
      ((encodeUnsigned number).length + count - 1) = number := by
    rw [← groupSum_take (by rw [List.length_append]; omega), last, List.take_left,
      groupSum_padded_zero, groupSum_encodeUnsigned]
  rw [decodeUnsigned_eq,
    findIdx?_padded (by decide) (findIdx?_encodeUnsigned number)]
  dsimp only
  rw [sum, last]
  by_cases few : (padded 0 (encodeUnsigned number) count).length ≤ 18
  · rw [if_neg (by omega)]
    simp [few]
  · rw [if_pos (by omega), if_neg (fun both => few both.1)]

/-- Unsigned numbers are read exactly. The first byte below 128 ends the number, which is the sum of
the groups up to it; it is refused if it has more than eighteen groups or does not fit in 64 bits,
and missing if the bytes end before it does. The same comes out of a word of 128 bits that the
groups are shifted into. So a number is read from its shortest encoding and from every longer one
of at most eighteen groups, whatever stands behind it, and one that does not fit never is. -/
theorem unsigned_numbers_are_exact :
    (∀ bytes : Bytes, decodeUnsigned bytes =
      match bytes.findIdx? (· < 128) with
      | some last =>
          if 17 < last then .error .overflow
          else if sumUpTo bytes last < 2 ^ 64 then
            .ok (UInt64.ofNat (sumUpTo bytes last), last + 1)
          else .error .overflow
      | none => if bytes.length ≤ 18 then .error .truncated else .error .overflow) ∧
    (∀ bytes : Bytes, decodeUnsigned bytes = collect 0 0 bytes >>= Collected.unsigned) ∧
    (∀ (value : UInt64) (suffix : Bytes),
      decodeUnsigned (encodeUnsigned value.toNat ++ suffix) =
        .ok (value, (encodeUnsigned value.toNat).length)) ∧
    (∀ (value : UInt64) (count : Nat) (suffix : Bytes),
      (padded 0 (encodeUnsigned value.toNat) count).length ≤ 18 →
        decodeUnsigned (padded 0 (encodeUnsigned value.toNat) count ++ suffix) =
          .ok (value, (padded 0 (encodeUnsigned value.toNat) count).length)) ∧
    ∀ (number count : Nat) (suffix : Bytes), 2 ^ 64 ≤ number →
      decodeUnsigned (padded 0 (encodeUnsigned number) count ++ suffix) = .error .overflow := by
  have padding (value : UInt64) (count : Nat) (suffix : Bytes)
      (few : (padded 0 (encodeUnsigned value.toNat) count).length ≤ 18) :
      decodeUnsigned (padded 0 (encodeUnsigned value.toNat) count ++ suffix) =
        .ok (value, (padded 0 (encodeUnsigned value.toNat) count).length) := by
    rw [decodeUnsigned_padded, if_pos ⟨few, value.toNat_lt⟩, UInt64.ofNat_toNat]
  refine ⟨decodeUnsigned_eq, decodeUnsigned_eq_collect, ?_, padding, ?_⟩
  · intro value suffix
    have room : value.toNat < 128 ^ (17 + 1) :=
      Nat.lt_trans value.toNat_lt (by decide)
    exact padding value 0 suffix (length_encodeUnsigned_le 17 value.toNat room)
  · intro number count suffix large
    rw [decodeUnsigned_padded, if_neg (fun both => Nat.not_lt.mpr large both.2)]

/-- The largest number in eighteen groups, and the next one in ten. -/
theorem unsigned_numbers_are_exact_largest :
    decodeUnsigned (List.replicate 9 0xff ++ [0x81] ++ List.replicate 7 0x80 ++ [0] ++ [5]) =
        .ok (0xffffffffffffffff, 18) ∧
      decodeUnsigned (List.replicate 9 0x80 ++ [2] ++ [5]) = .error .overflow := by
  obtain ⟨_, _, _, padding, larger⟩ := unsigned_numbers_are_exact
  have greatest : padded 0 (encodeUnsigned (0xffffffffffffffff : UInt64).toNat) 8 =
      List.replicate 9 0xff ++ [0x81] ++ List.replicate 7 0x80 ++ [0] := by decide +kernel
  have next : padded 0 (encodeUnsigned (2 ^ 64)) 0 = List.replicate 9 0x80 ++ [2] := by
    decide +kernel
  have few : (padded 0 (encodeUnsigned (0xffffffffffffffff : UInt64).toNat) 8).length ≤ 18 := by
    rw [greatest]
    decide
  constructor
  · have reads := padding 0xffffffffffffffff 8 [5] few
    rw [greatest] at reads
    exact reads
  · rw [← next]
    exact larger (2 ^ 64) 0 [5] (Nat.le_refl _)

end Symbolication.Leb128
