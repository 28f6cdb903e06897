/-!
Byte lists: splitting at a count or at a zero byte, and little-endian numbers.
A split never loses a byte, which is what every reading below rests on.
-/

namespace Symbolication

abbrev Bytes := List UInt8

namespace Bytes

/-- Whether there are at least `count` bytes; no more of them are looked at. -/
def hasAtLeast : Nat → Bytes → Bool
  | 0, _ => true
  | _ + 1, [] => false
  | count + 1, _ :: rest => hasAtLeast count rest

theorem hasAtLeast_iff {count : Nat} {bytes : Bytes} :
    hasAtLeast count bytes = true ↔ count ≤ bytes.length := by
  induction count generalizing bytes with
  | zero => simp [hasAtLeast]
  | succ count induction =>
      cases bytes with
      | nil => simp [hasAtLeast]
      | cons byte rest => simp [hasAtLeast, induction]

/-- A number that counts bytes in memory. It has to fit into a word of the machine, which has 64
bits. -/
def count? (number : UInt64) : Option Nat :=
  if number.toNat < UInt64.size then some number.toNat else none

theorem count?_eq (number : UInt64) : count? number = some number.toNat := if_pos number.toNat_lt

/-- Splits off exactly `count` bytes. Answers `none` when fewer are there. -/
def splitExactly? (count : Nat) (bytes : Bytes) : Option (Bytes × Bytes) :=
  if hasAtLeast count bytes then some (bytes.take count, bytes.drop count) else none

theorem splitExactly?_sound {count : Nat} {bytes taken suffix : Bytes}
    (split : splitExactly? count bytes = some (taken, suffix)) :
    bytes = taken ++ suffix ∧ taken.length = count := by
  simp only [splitExactly?] at split
  split at split
  · rename_i enough
    cases split
    rw [hasAtLeast_iff] at enough
    simp [enough]
  · cases split

theorem splitExactly?_append (taken suffix : Bytes) :
    splitExactly? taken.length (taken ++ suffix) = some (taken, suffix) := by
  simp [splitExactly?, hasAtLeast_iff]

theorem splitExactly?_eq_none_iff {count : Nat} {bytes : Bytes} :
    splitExactly? count bytes = none ↔ bytes.length < count := by
  simp [splitExactly?, hasAtLeast_iff]

/-- Splits at the first zero byte, which belongs to neither part. -/
def splitAtZero? (bytes : Bytes) : Option (Bytes × Bytes) :=
  match bytes.dropWhile (· ≠ 0) with
  | [] => none
  | _ :: suffix => some (bytes.takeWhile (· ≠ 0), suffix)

theorem splitAtZero?_sound {bytes text suffix : Bytes}
    (split : splitAtZero? bytes = some (text, suffix)) :
    bytes = text ++ 0 :: suffix ∧ 0 ∉ text := by
  simp only [splitAtZero?] at split
  split at split
  · cases split
  · rename_i first behind tail
    cases split
    have parts := List.takeWhile_append_dropWhile (p := fun byte => decide (byte ≠ 0)) (l := bytes)
    have stopped := List.head?_dropWhile_not (fun byte => decide (byte ≠ 0)) bytes
    have clean := List.all_takeWhile (p := fun byte => decide (byte ≠ 0)) (l := bytes)
    rw [tail] at parts stopped
    simp only [List.head?_cons, ne_eq, decide_not, Bool.not_eq_eq_eq_not, Bool.not_false,
      decide_eq_true_eq] at stopped
    rw [List.all_eq_true] at clean
    subst stopped
    constructor
    · exact parts.symm
    · intro member
      simpa using clean 0 member

theorem splitAtZero?_append {text : Bytes} (clean : 0 ∉ text) (suffix : Bytes) :
    splitAtZero? (text ++ 0 :: suffix) = some (text, suffix) := by
  induction text with
  | nil => simp [splitAtZero?]
  | cons byte text induction =>
      simp only [List.mem_cons, not_or] at clean
      have previous := induction clean.2
      simp only [splitAtZero?] at previous
      split at previous
      · cases previous
      · simp_all [splitAtZero?, Ne.symm clean.1]

/-- The number whose base-256 digits are the bytes, the lowest first. -/
def littleEndian : Bytes → Nat
  | [] => 0
  | byte :: rest => byte.toNat + 256 * littleEndian rest

/-- The bytes from `offset` on, `count` of them. Answers `none` unless all of them are there. -/
def slice? (bytes : Bytes) (offset count : Nat) : Option Bytes :=
  if offset + count ≤ bytes.length then some ((bytes.drop offset).take count) else none

theorem slice?_append (front middle back : Bytes) :
    slice? (front ++ (middle ++ back)) front.length middle.length = some middle := by
  unfold slice?
  rw [List.drop_left, List.take_left, List.length_append, List.length_append,
    if_pos (by omega)]

theorem slice?_of_eq (front behind : Bytes) {bytes middle : Bytes} {offset count : Nat}
    (split : bytes = front ++ (middle ++ behind)) (starts : front.length = offset)
    (length : middle.length = count) : bytes.slice? offset count = some middle := by
  rw [split, ← starts, ← length]
  exact slice?_append front middle behind

end Bytes

end Symbolication
