import Mathlib.Algebra.Group.Nat.Defs
import Symbolication.Width

/-!
Numbers written in a fixed number of bytes, the lowest byte first.
-/

namespace Symbolication.Bytes

def ofNumber : Nat → Nat → Bytes
  | 0, _ => []
  | count + 1, value => UInt8.ofNat value :: ofNumber count (value / 256)

@[simp] theorem length_ofNumber (count value : Nat) : (ofNumber count value).length = count := by
  induction count generalizing value with
  | zero => rfl
  | succ count induction => rw [ofNumber, List.length_cons, induction]

theorem littleEndian_ofNumber {count value : Nat} (fits : value < 256 ^ count) :
    littleEndian (ofNumber count value) = value := by
  induction count generalizing value with
  | zero =>
      rw [Nat.pow_zero] at fits
      rw [ofNumber, littleEndian]
      omega
  | succ count induction =>
      have quotientFits : value / 256 < 256 ^ count := by
        rw [Nat.pow_succ] at fits
        omega
      have lowest : (UInt8.ofNat value).toNat = value % 256 := UInt8.toNat_ofNat'
      rw [ofNumber, littleEndian, induction quotientFits, lowest]
      omega

theorem littleEndian_lt (bytes : Bytes) : littleEndian bytes < 256 ^ bytes.length := by
  induction bytes with
  | nil => decide
  | cons byte rest induction =>
      have small : byte.toNat < 256 := byte.toNat_lt
      rw [littleEndian, List.length_cons, Nat.pow_succ]
      omega

theorem constant?_ofNumber {count value : Nat} (sized : count ∈ [1, 2, 4, 8])
    (fits : value < 256 ^ count) :
    constant? (ofNumber count value) = some (UInt64.ofNat value) := by
  unfold constant?
  rw [length_ofNumber, if_pos sized, littleEndian_ofNumber fits]

/-- Bytes are the digits of the number that they stand for. -/
theorem ofNumber_littleEndian (bytes : Bytes) :
    ofNumber bytes.length (littleEndian bytes) = bytes := by
  induction bytes with
  | nil => rfl
  | cons byte rest induction =>
      have small : byte.toNat < 256 := byte.toNat_lt
      have lowest : UInt8.ofNat (byte.toNat + 256 * littleEndian rest) = byte := by
        apply UInt8.toNat_inj.mp
        rw [UInt8.toNat_ofNat']
        omega
      have others : (byte.toNat + 256 * littleEndian rest) / 256 = littleEndian rest := by omega
      rw [littleEndian, List.length_cons, ofNumber, lowest, others, induction]

end Symbolication.Bytes
