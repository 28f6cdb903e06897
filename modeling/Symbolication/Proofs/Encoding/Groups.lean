import Mathlib.Algebra.BigOperators.Group.Finset.Basic
import Mathlib.Algebra.BigOperators.Ring.Finset
import Mathlib.Tactic.Ring
import Symbolication.Proofs.Encoding.Leb128

/-!
The groups of a number in base 128. They end with the first byte below 128 and are the digits of the
number, the lowest first; further groups behind them do not change it. A word of 128 bits has room
for as many groups as are accepted, so they can be collected in one by shifts.
-/

namespace Symbolication.Leb128

/-- Splitting is decided by the place of the first byte below 128. -/
theorem splitEncoding_eq (limit : Nat) (bytes : Bytes) :
    splitEncoding limit bytes =
      match bytes.findIdx? (· < 128) with
      | some last =>
          if last < limit then .ok (bytes.take (last + 1), bytes.drop (last + 1))
          else .error .overflow
      | none => if bytes.length ≤ limit then .error .truncated else .error .overflow := by
  induction bytes generalizing limit with
  | nil => cases limit <;> rfl
  | cons byte rest induction =>
      rw [List.findIdx?_cons]
      cases limit with
      | zero =>
          by_cases last : byte < 128
          · simp [splitEncoding, last]
          · cases rest.findIdx? (· < 128) <;> simp [splitEncoding, last]
      | succ limit =>
          rw [splitEncoding]
          by_cases last : byte < 128
          · simp [last]
          · rw [if_neg last, induction limit]
            cases place : rest.findIdx? (· < 128) with
            | none => by_cases few : rest.length ≤ limit <;> simp [last, few]
            | some index => by_cases few : index < limit <;> simp [last, few]

/-- The number whose digits in base 128 are the groups up to an index. -/
def sumUpTo (bytes : Bytes) (last : Nat) : Nat :=
  ∑ index ∈ Finset.range (last + 1), (bytes.getD index 0).toNat % 128 * 128 ^ index

theorem groupSum_eq_sum (bytes : Bytes) :
    groupSum bytes =
      ∑ index ∈ Finset.range bytes.length, (bytes.getD index 0).toNat % 128 * 128 ^ index := by
  induction bytes with
  | nil => rfl
  | cons byte rest induction =>
      have shifted (index : Nat) :
          ((byte :: rest).getD (index + 1) 0).toNat % 128 * 128 ^ (index + 1) =
            128 * ((rest.getD index 0).toNat % 128 * 128 ^ index) := by
        rw [List.getD_cons_succ, Nat.pow_succ]
        ac_rfl
      rw [groupSum, induction, List.length_cons, Finset.sum_range_succ', Finset.mul_sum]
      simp only [shifted, List.getD_cons_zero, Nat.pow_zero, Nat.mul_one]
      exact Nat.add_comm _ _

theorem groupSum_take {bytes : Bytes} {last : Nat} (inside : last < bytes.length) :
    groupSum (bytes.take (last + 1)) = sumUpTo bytes last := by
  have length : (bytes.take (last + 1)).length = last + 1 := List.length_take_of_le inside
  rw [groupSum_eq_sum, length, sumUpTo]
  apply Finset.sum_congr rfl
  intro index member
  rw [Finset.mem_range] at member
  simp only [List.getD_eq_getElem?_getD, List.getElem?_take_of_lt member]

theorem groupSum_append (front back : Bytes) :
    groupSum (front ++ back) = groupSum front + 128 ^ front.length * groupSum back := by
  induction front with
  | nil => simp [groupSum]
  | cons byte front induction =>
      rw [List.cons_append, groupSum, groupSum, induction, List.length_cons, Nat.pow_succ]
      ring

/-- An encoding with further groups of one value behind its own. -/
def padded (group : UInt8) (encoding : Bytes) : Nat → Bytes
  | 0 => encoding
  | count + 1 =>
      encoding.map (· ||| 128) ++ (List.replicate count (group ||| 128) ++ [group])

theorem length_padded (group : UInt8) (encoding : Bytes) (count : Nat) :
    (padded group encoding count).length = encoding.length + count := by
  cases count <;> simp [padded]

theorem findIdx?_last {group : Nat} (bound : group < 128) :
    [UInt8.ofNat group].findIdx? (· < 128) = some 0 := by
  rw [List.findIdx?_cons, if_pos (decide_eq_true (last_lt bound))]

/-- Groups that end with the last one still do behind a continued group. -/
theorem findIdx?_continued {group : Nat} (bound : group < 128) {bytes : Bytes}
    (nonempty : bytes ≠ []) (ends : bytes.findIdx? (· < 128) = some (bytes.length - 1)) :
    (continued group :: bytes).findIdx? (· < 128) =
      some ((continued group :: bytes).length - 1) := by
  have positive := List.length_pos_of_ne_nil nonempty
  rw [List.findIdx?_cons, if_neg (by simpa using continued_not_lt bound), ends, List.length_cons,
    Option.map_some]
  exact congrArg some (by omega)

theorem not_lt_of_continues (byte : UInt8) : ¬(byte ||| 128) < 128 := by
  rw [UInt8.lt_iff_toNat_lt, UInt8.toNat_or, Nat.not_lt]
  exact Nat.right_le_or

theorem findIdx?_continues (bytes : Bytes) :
    (bytes.map (· ||| 128)).findIdx? (· < 128) = none := by
  rw [List.findIdx?_eq_none_iff, List.forall_mem_map]
  intro byte _
  simpa using not_lt_of_continues byte

/-- The number of a padded encoding ends where the encoding does. -/
theorem findIdx?_padded {group : UInt8} {encoding : Bytes} (small : group < 128)
    (whole : encoding.findIdx? (· < 128) = some (encoding.length - 1)) (count : Nat)
    (suffix : Bytes) :
    (padded group encoding count ++ suffix).findIdx? (· < 128) =
      some (encoding.length + count - 1) := by
  cases count with
  | zero =>
      rw [padded, List.findIdx?_append, whole]
      rfl
  | succ count =>
      have filler : (List.replicate count (group ||| 128)).findIdx? (· < 128) = none := by
        have continued : (List.replicate count group).map (· ||| 128) =
            List.replicate count (group ||| 128) := List.map_replicate
        rw [← continued, findIdx?_continues]
      have last : [group].findIdx? (· < 128) = some 0 := by simp [List.findIdx?_cons, small]
      rw [padded, List.append_assoc, List.append_assoc, List.findIdx?_append,
        findIdx?_continues, List.findIdx?_append, filler, List.findIdx?_append, last]
      simp [Nat.add_comm]

theorem groupSum_continues (bytes : Bytes) :
    groupSum (bytes.map (· ||| 128)) = groupSum bytes := by
  induction bytes with
  | nil => rfl
  | cons byte rest induction =>
      have low : (byte ||| 128).toNat % 2 ^ 7 = byte.toNat % 2 ^ 7 := by
        rw [UInt8.toNat_or, Nat.or_mod_two_pow]
        exact Nat.or_zero _
      rw [List.map_cons, groupSum, induction, groupSum]
      exact congrArg (· + 128 * groupSum rest) low

theorem groupSum_replicate_zero (count : Nat) :
    groupSum (List.replicate count ((0 : UInt8) ||| 128) ++ [0]) = 0 := by
  induction count with
  | zero => rfl
  | succ count induction =>
      rw [List.replicate_succ, List.cons_append, groupSum, induction]
      rfl

theorem groupSum_padded_zero (encoding : Bytes) (count : Nat) :
    groupSum (padded 0 encoding count) = groupSum encoding := by
  cases count with
  | zero => rfl
  | succ count =>
      rw [padded, groupSum_append, groupSum_replicate_zero, groupSum_continues, Nat.mul_zero,
        Nat.add_zero]

/-- The number of 128 bits that the groups are collected in, how many there are, and the last of
them. -/
structure Collected where
  word : BitVec 128
  count : Nat
  last : UInt8
deriving DecidableEq, Repr

/-- Groups collected in a word, each shifted behind those in front of it. -/
def collect (word : BitVec 128) (count : Nat) : Bytes → Except Fault Collected
  | [] => .error .truncated
  | byte :: rest =>
      if count = maximumLength then .error .overflow
      else
        let word := word ||| (byte &&& 0x7f).toBitVec.setWidth 128 <<< (7 * count)
        if byte &&& 0x80 = 0 then .ok { word, count := count + 1, last := byte }
        else collect word (count + 1) rest

theorem and_eq_zero_iff (byte : UInt8) : byte &&& 0x80 = 0 ↔ byte < 128 := by
  have bits : ∀ bits : BitVec 8, bits &&& 0x80 = 0 ↔ bits < 128 := by decide
  rw [← UInt8.toBitVec_inj, UInt8.toBitVec_and, UInt8.lt_iff_toBitVec_lt]
  exact bits byte.toBitVec

theorem toNat_group (byte : UInt8) : (byte &&& 0x7f).toNat = byte.toNat % 128 := by
  rw [UInt8.toNat_and]
  exact Nat.and_two_pow_sub_one_eq_mod byte.toNat 7

/-- A group that is shifted behind the others is added to them, as long as it stays in the word. -/
theorem toNat_or_shift {word : BitVec 128} {count : Nat} (byte : UInt8)
    (room : count < maximumLength) (below : word.toNat < 128 ^ count) :
    (word ||| (byte &&& 0x7f).toBitVec.setWidth 128 <<< (7 * count)).toNat =
      word.toNat + 128 ^ count * (byte.toNat % 128) := by
  have power : 128 ^ count = 2 ^ (7 * count) := by rw [Nat.pow_mul]
  have group : ((byte &&& 0x7f).toBitVec.setWidth 128).toNat = byte.toNat % 128 := by
    rw [BitVec.toNat_setWidth_of_le (by decide), UInt8.toNat_toBitVec, toNat_group]
  have small : byte.toNat % 128 * 2 ^ (7 * count) < 2 ^ 128 := by
    have digit : byte.toNat % 128 < 2 ^ 7 := Nat.mod_lt _ (by decide)
    have place : 2 ^ (7 * count) ≤ 2 ^ 119 := by
      unfold maximumLength at room
      exact Nat.pow_le_pow_right (by decide) (by omega)
    calc byte.toNat % 128 * 2 ^ (7 * count) < 2 ^ 7 * 2 ^ 119 :=
          Nat.mul_lt_mul_of_lt_of_le digit place (by decide)
      _ < 2 ^ 128 := by decide
  rw [BitVec.toNat_or, BitVec.toNat_shiftLeft, group, Nat.shiftLeft_eq, Nat.mod_eq_of_lt small,
    Nat.or_comm, ← Nat.shiftLeft_eq, ← Nat.shiftLeft_add_eq_or_of_lt (power ▸ below),
    Nat.shiftLeft_eq, power, Nat.add_comm, Nat.mul_comm]

theorem add_digit_lt {number count digit : Nat} (below : number < 128 ^ count)
    (small : digit < 128) : number + 128 ^ count * digit < 128 ^ (count + 1) :=
  calc number + 128 ^ count * digit < 128 ^ count + 128 ^ count * digit :=
        Nat.add_lt_add_right below _
    _ = 128 ^ count * (digit + 1) := by ring
    _ ≤ 128 ^ count * 128 := Nat.mul_le_mul_left _ small

theorem collect_of_fault {word : BitVec 128} {count : Nat} {bytes : Bytes} {fault : Fault}
    (room : count ≤ maximumLength)
    (split : splitEncoding (maximumLength - count) bytes = .error fault) :
    collect word count bytes = .error fault := by
  induction bytes generalizing word count with
  | nil =>
      cases left : maximumLength - count <;> rw [left] at split <;> cases split <;> rfl
  | cons byte rest induction =>
      rw [collect]
      by_cases full : count = maximumLength
      · rw [full, Nat.sub_self] at split
        cases split
        rw [if_pos full]
      · have left : maximumLength - count = (maximumLength - (count + 1)) + 1 := by omega
        rw [left, splitEncoding] at split
        split at split
        · cases split
        · rename_i more
          split at split
          · rename_i inner
            cases split
            rw [if_neg full]
            dsimp only
            rw [if_neg ((and_eq_zero_iff byte).not.mpr more), induction (by omega) inner]
          · cases split

/-- What has been split off is collected whole: the word is then worth its groups. -/
theorem collect_of_split {word : BitVec 128} {count : Nat} {bytes encoding suffix : Bytes}
    (room : count ≤ maximumLength) (below : word.toNat < 128 ^ count)
    (split : splitEncoding (maximumLength - count) bytes = .ok (encoding, suffix)) :
    ∃ collected, collect word count bytes = .ok collected ∧
      collected.word.toNat = word.toNat + 128 ^ count * groupSum encoding ∧
      collected.count = count + encoding.length ∧ encoding.getLast? = some collected.last := by
  induction bytes generalizing word count encoding with
  | nil =>
      cases left : maximumLength - count <;> rw [left] at split <;> cases split
  | cons byte rest induction =>
      rw [collect]
      by_cases full : count = maximumLength
      · rw [full, Nat.sub_self] at split
        cases split
      · have left : maximumLength - count = (maximumLength - (count + 1)) + 1 := by omega
        have next := toNat_or_shift byte (by omega) below
        rw [left, splitEncoding] at split
        rw [if_neg full]
        dsimp only
        split at split
        · rename_i last
          cases split
          rw [if_pos ((and_eq_zero_iff byte).mpr last)]
          refine ⟨_, rfl, ?_, rfl, rfl⟩
          rw [next, groupSum, groupSum, Nat.mul_zero, Nat.add_zero]
        · rename_i more
          split at split
          · cases split
          · rename_i inner tail innerSplit
            cases split
            have belowNext := add_digit_lt below (Nat.mod_lt byte.toNat (by decide : 0 < 128))
            rw [← next] at belowNext
            obtain ⟨collected, collects, value, number, ends⟩ :=
              induction (by omega) belowNext innerSplit
            rw [if_neg ((and_eq_zero_iff byte).not.mpr more), collects]
            refine ⟨collected, rfl, ?_, ?_, ?_⟩
            · rw [value, next, groupSum, Nat.pow_succ]
              ring
            · rw [number, List.length_cons]
              omega
            · cases inner with
              | nil => cases ends
              | cons first others => exact ends

end Symbolication.Leb128
