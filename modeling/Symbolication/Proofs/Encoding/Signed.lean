import Symbolication.Proofs.Encoding.Groups

/-!
Signed numbers in base 128, whatever the bytes are. The groups up to the first byte below 128 are a
number in two's complement with its sign in bit 6 of that byte. Groups that repeat the sign behind
the others do not change the number, and setting the bits of a word above the groups is the same as
counting the last group against the others.
-/

namespace Symbolication.Leb128

theorem testBit_iff (byte : UInt8) : byte.toNat.testBit 6 = true ↔ 64 ≤ byte.toNat % 128 := by
  rw [Nat.testBit_eq_decide_div_mod_eq, decide_eq_true_iff]
  omega

/-- The number in two's complement whose digits in base 128 are the groups up to an index. -/
def signedUpTo (bytes : Bytes) (last : Nat) : Int :=
  if (bytes.getD last 0).toNat.testBit 6 then (sumUpTo bytes last : Int) - 128 ^ (last + 1)
  else sumUpTo bytes last

theorem signedSum_eq {encoding : Bytes} {last : UInt8}
    (ends : encoding.getLast? = some last) :
    signedSum encoding =
      if last.toNat.testBit 6 then (groupSum encoding : Int) - 128 ^ encoding.length
      else groupSum encoding := by
  have power : ((Nat.pow 128 encoding.length : Nat) : Int) = 128 ^ encoding.length :=
    Int.natCast_pow 128 encoding.length
  unfold signedSum isNegative
  simp only [ends, decide_eq_true_eq, testBit_iff, power]

theorem signedSum_take {bytes : Bytes} {last : Nat} (inside : last < bytes.length) :
    signedSum (bytes.take (last + 1)) = signedUpTo bytes last := by
  have length : (bytes.take (last + 1)).length = last + 1 := List.length_take_of_le inside
  have ends : (bytes.take (last + 1)).getLast? = some (bytes.getD last 0) := by
    rw [List.getLast?_eq_getElem?, length, Nat.add_sub_cancel,
      List.getElem?_take_of_lt (Nat.lt_succ_self last), List.getD_eq_getElem?_getD,
      List.getElem?_eq_getElem inside, Option.getD_some]
  rw [signedSum_eq ends, groupSum_take inside, length]
  rfl

theorem signedValue_eq (encoding : Bytes) :
    signedValue encoding =
      if -2 ^ 63 ≤ signedSum encoding ∧ signedSum encoding < 2 ^ 63 then
        .ok (Int64.ofInt (signedSum encoding))
      else .error .overflow := by
  have least : Int64.minValue.toInt = -2 ^ 63 := rfl
  have greatest : Int64.maxValue.toInt = 2 ^ 63 - 1 := rfl
  unfold signedValue
  simp only [least, greatest, Int.le_sub_one_iff]

theorem decodeSigned_eq (bytes : Bytes) :
    decodeSigned bytes =
      match bytes.findIdx? (· < 128) with
      | some last =>
          if 17 < last then .error .overflow
          else if -2 ^ 63 ≤ signedUpTo bytes last ∧ signedUpTo bytes last < 2 ^ 63 then
            .ok (Int64.ofInt (signedUpTo bytes last), last + 1)
          else .error .overflow
      | none => if bytes.length ≤ 18 then .error .truncated else .error .overflow := by
  unfold decodeSigned
  rw [splitEncoding_eq]
  unfold maximumLength
  cases place : bytes.findIdx? (· < 128) with
  | none =>
      dsimp only
      split <;> rfl
  | some last =>
      dsimp only
      by_cases many : 17 < last
      · rw [if_pos many, if_neg (by omega)]
        rfl
      · have inside : last < bytes.length := (List.findIdx?_eq_some_iff_getElem.mp place).1
        have length : (bytes.take (last + 1)).length = last + 1 := List.length_take_of_le inside
        rw [if_neg many, if_pos (by omega)]
        change (signedValue (bytes.take (last + 1)) >>= fun value =>
          .ok (value, (bytes.take (last + 1)).length)) = _
        rw [signedValue_eq, signedSum_take inside, length]
        split <;> rfl

/-- The word with all bits above its groups set, if the sign bit of the last one is. -/
def Collected.extended (collected : Collected) : BitVec 128 :=
  if collected.last &&& 0x40 = 0 then collected.word
  else collected.word ||| BitVec.allOnes 128 <<< (7 * collected.count)

/-- The number of a word that groups were collected in, if it fits in 64 bits with its sign. -/
def Collected.signed (collected : Collected) : Except Fault (Int64 × Nat) :=
  if -2 ^ 63 ≤ collected.extended.toInt ∧ collected.extended.toInt < 2 ^ 63 then
    .ok (.ofBitVec (collected.extended.setWidth 64), collected.count)
  else .error .overflow

theorem sign_eq_zero_iff (byte : UInt8) : byte &&& 0x40 = 0 ↔ ¬byte.toNat.testBit 6 := by
  have bits : ∀ bits : BitVec 8, bits &&& 0x40 = 0 ↔ ¬bits.toNat.testBit 6 := by decide
  rw [← UInt8.toBitVec_inj, UInt8.toBitVec_and]
  exact bits byte.toBitVec

theorem groupSum_lt (bytes : Bytes) : groupSum bytes < 128 ^ bytes.length := by
  induction bytes with
  | nil => decide
  | cons byte rest induction =>
      have group := Nat.mod_lt byte.toNat (by decide : 0 < 128)
      rw [groupSum, List.length_cons, Nat.pow_succ]
      omega

theorem length_le_of_split {limit : Nat} {bytes encoding suffix : Bytes}
    (split : splitEncoding limit bytes = .ok (encoding, suffix)) : encoding.length ≤ limit := by
  rw [splitEncoding_eq] at split
  cases place : bytes.findIdx? (· < 128) with
  | none =>
      rw [place] at split
      dsimp only at split
      split at split <;> cases split
  | some last =>
      rw [place] at split
      dsimp only at split
      split at split
      · rename_i few
        cases split
        exact Nat.le_trans (List.length_take_le _ _) few
      · cases split

/-- Setting all bits above the groups takes the next power from their number. -/
theorem toInt_or_shiftedOnes {word : BitVec 128} {place : Nat} (inside : place ≤ 126)
    (below : word.toNat < 2 ^ place) :
    (word ||| BitVec.allOnes 128 <<< place).toInt = (word.toNat : Int) - 2 ^ place := by
  have small : 2 ^ place ≤ 2 ^ 126 := Nat.pow_le_pow_right (by decide) inside
  have positive : 0 < 2 ^ place := Nat.two_pow_pos place
  have power : 2 ^ 128 = 2 ^ (128 - place) * 2 ^ place := by
    rw [← Nat.pow_add, Nat.sub_add_cancel (by omega)]
  have above : (BitVec.allOnes 128 <<< place).toNat = (2 ^ (128 - place) - 1) <<< place := by
    rw [BitVec.toNat_shiftLeft, BitVec.toNat_allOnes, Nat.shiftLeft_eq, Nat.shiftLeft_eq]
    have split : (2 ^ 128 - 1) * 2 ^ place =
        (2 ^ (128 - place) - 1) * 2 ^ place + 2 ^ 128 * (2 ^ place - 1) := by
      have larger : 2 ^ 128 ≤ 2 ^ 128 * 2 ^ place := Nat.le_mul_of_pos_right _ positive
      rw [Nat.sub_mul, Nat.sub_mul, Nat.mul_sub, Nat.one_mul, Nat.mul_one, ← power]
      omega
    rw [split, Nat.add_mul_mod_self_left, Nat.sub_mul, Nat.one_mul, ← power]
    exact Nat.mod_eq_of_lt (Nat.sub_lt (by decide) positive)
  have number : (word ||| BitVec.allOnes 128 <<< place).toNat =
      2 ^ 128 - 2 ^ place + word.toNat := by
    rw [BitVec.toNat_or, above, Nat.or_comm, ← Nat.shiftLeft_add_eq_or_of_lt below,
      Nat.shiftLeft_eq, Nat.sub_mul, Nat.one_mul, ← power]
  have powers : ((2 ^ place : Nat) : Int) = 2 ^ place := Int.natCast_pow 2 place
  rw [BitVec.toInt_eq_toNat_cond, number, if_neg (by omega), ← powers]
  omega

theorem toInt_setWidth_of_bounds {word : BitVec 128} (above : -2 ^ 63 ≤ word.toInt)
    (below : word.toInt < 2 ^ 63) : (word.setWidth 64).toInt = word.toInt := by
  have divides : 2 ^ 64 ∣ 2 ^ 128 := by decide
  rw [BitVec.toInt_setWidth, ← Int.bmod_bmod_of_dvd divides, ← BitVec.toInt_eq_toNat_bmod]
  exact Int.bmod_eq_of_le above below

theorem toInt_extended {collected : Collected} {encoding : Bytes}
    (few : encoding.length ≤ maximumLength) (sum : collected.word.toNat = groupSum encoding)
    (number : collected.count = encoding.length)
    (ends : encoding.getLast? = some collected.last) :
    collected.extended.toInt = signedSum encoding := by
  have power : 128 ^ encoding.length = 2 ^ (7 * encoding.length) := by rw [Nat.pow_mul]
  have inside : 7 * encoding.length ≤ 126 := Nat.mul_le_mul_left 7 few
  have below : collected.word.toNat < 2 ^ (7 * encoding.length) := by
    rw [sum, ← power]
    exact groupSum_lt encoding
  rw [signedSum_eq ends]
  unfold Collected.extended
  by_cases sign : collected.last.toNat.testBit 6
  · have integers : (128 : Int) ^ encoding.length = 2 ^ (7 * encoding.length) := by
      rw [Int.pow_mul]
      rfl
    rw [if_pos sign, if_neg (fun zero => (sign_eq_zero_iff _).mp zero sign), number,
      toInt_or_shiftedOnes inside below, sum, integers]
  · have small : 2 ^ (7 * encoding.length) ≤ 2 ^ 126 := Nat.pow_le_pow_right (by decide) inside
    rw [if_neg sign, if_pos ((sign_eq_zero_iff _).mpr sign), BitVec.toInt_eq_toNat_cond,
      if_pos (by omega), sum]

/-- Collecting the groups in a word and extending their sign loses nothing of them. -/
theorem decodeSigned_eq_collect (bytes : Bytes) :
    decodeSigned bytes = collect 0 0 bytes >>= Collected.signed := by
  unfold decodeSigned
  cases split : splitEncoding maximumLength bytes with
  | error fault =>
      rw [collect_of_fault (Nat.zero_le _) split]
      rfl
  | ok parts =>
      obtain ⟨encoding, suffix⟩ := parts
      have empty : (0 : BitVec 128).toNat < 128 ^ 0 := by decide
      obtain ⟨collected, collects, value, count, ends⟩ :=
        collect_of_split (Nat.zero_le _) empty split
      have sum : collected.word.toNat = groupSum encoding := by simpa using value
      have number : collected.count = encoding.length := by simpa using count
      have extended := toInt_extended (length_le_of_split split) sum number ends
      rw [collects]
      change (signedValue encoding >>= fun value => .ok (value, encoding.length)) =
        collected.signed
      unfold Collected.signed
      rw [signedValue_eq, extended, number]
      by_cases fits : -2 ^ 63 ≤ signedSum encoding ∧ signedSum encoding < 2 ^ 63
      · have same : Int64.ofInt (signedSum encoding) =
            .ofBitVec (collected.extended.setWidth 64) := by
          rw [← extended] at fits
          apply Int64.toInt_inj.mp
          rw [Int64.toInt_ofBitVec, toInt_setWidth_of_bounds fits.1 fits.2, ← extended,
            Int64.toInt_ofInt_of_le fits.1 fits.2]
        rw [if_pos fits, if_pos fits, same]
        rfl
      · rw [if_neg fits, if_neg fits]
        rfl

theorem findIdx?_encodeSigned (value : Int) :
    (encodeSigned value).findIdx? (· < 128) = some ((encodeSigned value).length - 1) := by
  induction size : value.natAbs using Nat.strongRecOn generalizing value with
  | ind bound induction =>
      rw [encodeSigned]
      split
      · exact findIdx?_last (by omega)
      · exact findIdx?_continued (by omega) (encodeSigned_ne_nil _)
          (induction (value / 128).natAbs (by omega) (value / 128) rfl)

/-- The group that repeats the sign of a number. -/
def signGroup (value : Int) : UInt8 := if value < 0 then 0x7f else 0

theorem signGroup_lt (value : Int) : signGroup value < 128 := by
  unfold signGroup
  split <;> decide

theorem signedSum_append (front : Bytes) {back : Bytes} (more : back ≠ []) :
    signedSum (front ++ back) = groupSum front + 128 ^ front.length * signedSum back := by
  induction front with
  | nil => simp [groupSum]
  | cons byte front induction =>
      rw [List.cons_append, signedSum_cons byte (List.append_ne_nil_of_right_ne_nil front more),
        induction, groupSum, List.length_cons, Int.pow_succ]
      push_cast
      ring

/-- Groups that repeat a sign are worth the sign alone. -/
theorem signedSum_filler (value : Int) (count : Nat) :
    signedSum (List.replicate count (signGroup value ||| 128) ++ [signGroup value]) =
      if value < 0 then -1 else 0 := by
  induction count with
  | zero =>
      unfold signGroup
      split <;> rfl
  | succ count induction =>
      have group : (signGroup value ||| 128).toNat % 128 = if value < 0 then 127 else 0 := by
        unfold signGroup
        split <;> rfl
      rw [List.replicate_succ, List.cons_append, signedSum_cons _ (by simp), induction, group]
      split <;> rfl

/-- The groups of a number are worth it, but for the power that its sign takes from them. -/
theorem groupSum_encodeSigned (value : Int) :
    (groupSum (encodeSigned value) : Int) =
      value + 128 ^ (encodeSigned value).length * if value < 0 then 1 else 0 := by
  have below := groupSum_lt (encodeSigned value)
  have value_eq := signedSum_encodeSigned value
  have power : ((128 ^ (encodeSigned value).length : Nat) : Int) =
      128 ^ (encodeSigned value).length := Int.natCast_pow 128 _
  rw [signedSum_eq (List.getLast?_eq_some_getLast (encodeSigned_ne_nil value)), ← power] at value_eq
  rw [← power]
  split at value_eq
  · rw [if_pos (by omega), Int.mul_one]
    omega
  · rw [if_neg (by omega), Int.mul_zero]
    omega

theorem signedSum_padded (value : Int) (count : Nat) :
    signedSum (padded (signGroup value) (encodeSigned value) count) = value := by
  cases count with
  | zero => exact signedSum_encodeSigned value
  | succ count =>
      rw [padded, signedSum_append _ (by simp), signedSum_filler, groupSum_continues,
        groupSum_encodeSigned, List.length_map]
      split <;> ring

/-- How a number is read that is written with its sign repeated, and with other bytes behind it. -/
theorem decodeSigned_padded (value : Int) (count : Nat) (suffix : Bytes) :
    decodeSigned (padded (signGroup value) (encodeSigned value) count ++ suffix) =
      if (padded (signGroup value) (encodeSigned value) count).length ≤ 18 ∧
          -2 ^ 63 ≤ value ∧ value < 2 ^ 63 then
        .ok (Int64.ofInt value, (padded (signGroup value) (encodeSigned value) count).length)
      else .error .overflow := by
  have positive := List.length_pos_of_ne_nil (encodeSigned_ne_nil value)
  have length := length_padded (signGroup value) (encodeSigned value) count
  have last : (encodeSigned value).length + count - 1 + 1 =
      (padded (signGroup value) (encodeSigned value) count).length := by omega
  have sum : signedUpTo (padded (signGroup value) (encodeSigned value) count ++ suffix)
      ((encodeSigned value).length + count - 1) = value := by
    rw [← signedSum_take (by rw [List.length_append]; omega), last, List.take_left,
      signedSum_padded]
  rw [decodeSigned_eq, findIdx?_padded (signGroup_lt value) (findIdx?_encodeSigned value)]
  dsimp only
  rw [sum, last]
  by_cases few : (padded (signGroup value) (encodeSigned value) count).length ≤ 18
  · rw [if_neg (by omega)]
    simp [few]
  · rw [if_pos (by omega), if_neg (fun both => few both.1)]

theorem length_encodeSigned_le (limit : Nat) (value : Int) (above : -64 * 128 ^ limit ≤ value)
    (below : value < 64 * 128 ^ limit) : (encodeSigned value).length ≤ limit + 1 :=
  length_le_of_split (splitEncoding_encodeSigned limit value above below [])

/-- Signed numbers are read exactly. The first byte below 128 ends the number, which is the sum of
the groups up to it, less the next power of 128 if bit 6 of that byte is set; it is refused if it
has more than eighteen groups or does not fit in 64 bits with its sign, and missing if the bytes end
before it does. The same comes out of a word of 128 bits that the groups are shifted into and whose
other bits are set for a negative number. So a number is read from its shortest encoding and from
every longer one of at most eighteen groups that repeats the sign, whatever stands behind it, and
one that does not fit never is. -/
theorem signed_numbers_are_exact :
    (∀ bytes : Bytes, decodeSigned bytes =
      match bytes.findIdx? (· < 128) with
      | some last =>
          if 17 < last then .error .overflow
          else if -2 ^ 63 ≤ signedUpTo bytes last ∧ signedUpTo bytes last < 2 ^ 63 then
            .ok (Int64.ofInt (signedUpTo bytes last), last + 1)
          else .error .overflow
      | none => if bytes.length ≤ 18 then .error .truncated else .error .overflow) ∧
    (∀ bytes : Bytes, decodeSigned bytes = collect 0 0 bytes >>= Collected.signed) ∧
    (∀ (value : Int64) (suffix : Bytes),
      decodeSigned (encodeSigned value.toInt ++ suffix) =
        .ok (value, (encodeSigned value.toInt).length)) ∧
    (∀ (value : Int64) (count : Nat) (suffix : Bytes),
      (padded (signGroup value.toInt) (encodeSigned value.toInt) count).length ≤ 18 →
        decodeSigned (padded (signGroup value.toInt) (encodeSigned value.toInt) count ++ suffix) =
          .ok (value, (padded (signGroup value.toInt) (encodeSigned value.toInt) count).length)) ∧
    ∀ (value : Int) (count : Nat) (suffix : Bytes), value < -2 ^ 63 ∨ 2 ^ 63 ≤ value →
      decodeSigned (padded (signGroup value) (encodeSigned value) count ++ suffix) =
        .error .overflow := by
  have padding (value : Int64) (count : Nat) (suffix : Bytes)
      (few : (padded (signGroup value.toInt) (encodeSigned value.toInt) count).length ≤ 18) :
      decodeSigned (padded (signGroup value.toInt) (encodeSigned value.toInt) count ++ suffix) =
        .ok (value, (padded (signGroup value.toInt) (encodeSigned value.toInt) count).length) := by
    rw [decodeSigned_padded, if_pos ⟨few, value.le_toInt, value.toInt_lt⟩, Int64.ofInt_toInt]
  refine ⟨decodeSigned_eq, decodeSigned_eq_collect, ?_, padding, ?_⟩
  · intro value suffix
    have above := value.le_toInt
    have below := value.toInt_lt
    have room : (2 : Int) ^ 63 ≤ 64 * 128 ^ 17 := by decide
    exact padding value 0 suffix (length_encodeSigned_le 17 value.toInt (by omega) (by omega))
  · intro value count suffix outside
    rw [decodeSigned_padded, if_neg (fun fits => by omega)]

/-- The least number in eighteen groups, and the greatest that fits with one more, in ten. -/
theorem signed_numbers_are_exact_least :
    decodeSigned (List.replicate 9 0x80 ++ List.replicate 8 0xff ++ [0x7f] ++ [5]) =
        .ok (Int64.minValue, 18) ∧
      decodeSigned (List.replicate 9 0x80 ++ [1] ++ [5]) = .error .overflow := by
  obtain ⟨_, _, _, padding, outside⟩ := signed_numbers_are_exact
  have least : padded (signGroup Int64.minValue.toInt) (encodeSigned Int64.minValue.toInt) 8 =
      List.replicate 9 0x80 ++ List.replicate 8 0xff ++ [0x7f] := by decide +kernel
  have next : padded (signGroup (2 ^ 63)) (encodeSigned (2 ^ 63)) 0 =
      List.replicate 9 0x80 ++ [1] := by decide +kernel
  have few : (padded (signGroup Int64.minValue.toInt)
      (encodeSigned Int64.minValue.toInt) 8).length ≤ 18 := by
    rw [least]
    decide
  constructor
  · have reads := padding Int64.minValue 8 [5] few
    rw [least] at reads
    exact reads
  · rw [← next]
    exact outside (2 ^ 63) 0 [5] (.inr (by decide))

end Symbolication.Leb128
