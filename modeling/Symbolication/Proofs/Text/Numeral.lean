import Mathlib.Data.List.Forall2
import Mathlib.Data.Nat.Digits.Defs
import Mathlib.Tactic.Ring
import Symbolication.Text.Number

/-!
Numerals: digits of a base up to 16, the highest first, with letters in either case. Reading the
characters one by one accepts the numerals and nothing else, and finds the number that they write.
Done in a word of 64 bits, with overflow refused at every digit, it finds the same as long as the
number fits.
-/

namespace Symbolication.Text

/-- The character writes the digit. -/
def IsDigit (character : Char) (digit : Nat) : Prop :=
  "0123456789abcdef".toList[digit]? = some character ∨
    "0123456789ABCDEF".toList[digit]? = some character

/-- The characters are the digits of the number in the base, the highest first. There is at least
one, and any number of them may be zeros. -/
def IsNumeral (base : Nat) (characters : List Char) (number : Nat) : Prop :=
  characters ≠ [] ∧ ∃ digits, List.Forall₂ IsDigit characters digits ∧
    (∀ digit ∈ digits, digit < base) ∧ Nat.ofDigits base digits.reverse = number

theorem isDigit_lt {character : Char} {digit : Nat} (writes : IsDigit character digit) :
    digit < 16 := by
  rcases writes with lower | upper
  · exact (List.getElem?_eq_some_iff.mp lower).1
  · exact (List.getElem?_eq_some_iff.mp upper).1

theorem digitValue?_of_isDigit {base digit : Nat} {character : Char}
    (writes : IsDigit character digit) (small : digit < base) :
    digitValue? base character = some digit := by
  have values : ∀ place : Fin 16, ("0123456789abcdef".toList[place.val]?.toList ++
      "0123456789ABCDEF".toList[place.val]?.toList).all
        (digitValue? 16 · = some place.val) := by decide
  have member : character ∈ "0123456789abcdef".toList[digit]?.toList ++
      "0123456789ABCDEF".toList[digit]?.toList := by
    rw [List.mem_append, Option.mem_toList, Option.mem_toList]
    exact writes
  have value := of_decide_eq_true
    (List.all_eq_true.mp (values ⟨digit, isDigit_lt writes⟩) character member)
  unfold digitValue? at value ⊢
  rw [Option.filter_eq_some_iff] at value ⊢
  exact ⟨value.1, decide_eq_true small⟩

/-- A character in a range, by its place there. -/
theorem ofNat_place {first last character : Char} (above : first ≤ character)
    (below : character ≤ last) :
    Char.ofNat (first.toNat + (character.toNat - first.toNat)) = character ∧
      character.toNat - first.toNat ≤ last.toNat - first.toNat := by
  rw [Char.le_def, UInt32.le_iff_toNat_le] at above below
  change first.toNat ≤ character.toNat at above
  change character.toNat ≤ last.toNat at below
  exact ⟨by rw [Nat.add_sub_cancel' above, Char.ofNat_toNat], Nat.sub_le_sub_right below _⟩

theorem isDigit_of_digitValue? {base digit : Nat} {character : Char}
    (value : digitValue? base character = some digit) : IsDigit character digit ∧ digit < base := by
  unfold digitValue? at value
  obtain ⟨found, small⟩ := Option.filter_eq_some_iff.mp value
  refine ⟨?_, of_decide_eq_true small⟩
  have decimals : ∀ place : Fin 10,
      "0123456789abcdef".toList[place.val]? = some (Char.ofNat ('0'.toNat + place)) := by decide
  have lowers : ∀ place : Fin 6,
      "0123456789abcdef".toList[place.val + 10]? = some (Char.ofNat ('a'.toNat + place)) := by
    decide
  have uppers : ∀ place : Fin 6,
      "0123456789ABCDEF".toList[place.val + 10]? = some (Char.ofNat ('A'.toNat + place)) := by
    decide
  split at found
  · rename_i decimal
    obtain ⟨same, few⟩ := ofNat_place decimal.1 decimal.2
    have digit := decimals ⟨_, Nat.lt_succ_of_le few⟩
    rw [same] at digit
    cases found
    exact .inl digit
  · split at found
    · rename_i lower
      obtain ⟨same, few⟩ := ofNat_place lower.1 lower.2
      have digit := lowers ⟨_, Nat.lt_succ_of_le few⟩
      rw [same] at digit
      cases found
      exact .inl digit
    · split at found
      · rename_i upper
        obtain ⟨same, few⟩ := ofNat_place upper.1 upper.2
        have digit := uppers ⟨_, Nat.lt_succ_of_le few⟩
        rw [same] at digit
        cases found
        exact .inr digit
      · cases found

/-- Reading digits on from a value puts the value in front of the number that they write. -/
theorem digitsValue?_eq_some_iff {base value number : Nat} {characters : List Char} :
    digitsValue? base value characters = some number ↔
      ∃ digits, List.Forall₂ IsDigit characters digits ∧ (∀ digit ∈ digits, digit < base) ∧
        value * base ^ characters.length + Nat.ofDigits base digits.reverse = number := by
  induction characters generalizing value with
  | nil =>
      simp only [digitsValue?, List.forall₂_nil_left_iff, exists_eq_left]
      simp
  | cons character rest induction =>
      -- The digit behind the value makes a value that the other digits are read on from.
      have step (digit : Nat) {digits : List Nat} (same : List.Forall₂ IsDigit rest digits) :
          (value * base + digit) * base ^ rest.length + Nat.ofDigits base digits.reverse =
            value * base ^ (character :: rest).length +
              Nat.ofDigits base (digit :: digits).reverse := by
        rw [List.reverse_cons, Nat.ofDigits_append, List.length_reverse, ← same.length_eq,
          Nat.ofDigits_singleton, List.length_cons, Nat.pow_succ]
        ring
      rw [digitsValue?]
      constructor
      · intro reads
        cases first : digitValue? base character with
        | none =>
            rw [first] at reads
            cases reads
        | some digit =>
            rw [first] at reads
            obtain ⟨digits, same, small, rfl⟩ := induction.mp reads
            obtain ⟨writes, below⟩ := isDigit_of_digitValue? first
            refine ⟨digit :: digits, .cons writes same, ?_, (step digit same).symm⟩
            rw [List.forall_mem_cons]
            exact ⟨below, small⟩
      · rintro ⟨_, _ | @⟨_, digit, _, digits, writes, same⟩, small, rfl⟩
        rw [List.forall_mem_cons] at small
        rw [digitValue?_of_isDigit writes small.1]
        exact induction.mpr ⟨digits, same, small.2, step digit same⟩

theorem isNumeral_iff {base number : Nat} {characters : List Char} :
    IsNumeral base characters number ↔
      characters ≠ [] ∧ digitsValue? base 0 characters = some number := by
  simp only [IsNumeral, digitsValue?_eq_some_iff, Nat.zero_mul, Nat.zero_add]

theorem exists_isDigit_of_mem {base number : Nat} {characters : List Char} {character : Char}
    (numeral : IsNumeral base characters number) (member : character ∈ characters) :
    ∃ digit, digit < base ∧ IsDigit character digit := by
  obtain ⟨-, digits, same, small, -⟩ := numeral
  induction same with
  | nil => cases member
  | cons writes _ induction =>
      rw [List.forall_mem_cons] at small
      rcases List.mem_cons.mp member with rfl | later
      · exact ⟨_, small.1, writes⟩
      · exact induction later small.2

/-- Digits collected in a word of 64 bits, which is refused as soon as it overflows. -/
def collectDigits? (base : Nat) : UInt64 → List Char → Option UInt64
  | word, [] => some word
  | word, character :: rest =>
      match digitValue? base character with
      | none => none
      | some digit =>
          if word.toNat * base + digit < UInt64.size then
            collectDigits? base (word * UInt64.ofNat base + UInt64.ofNat digit) rest
          else none

theorem le_of_digitsValue? {base value number : Nat} {characters : List Char}
    (positive : 0 < base) (reads : digitsValue? base value characters = some number) :
    value ≤ number := by
  obtain ⟨digits, _, _, rfl⟩ := digitsValue?_eq_some_iff.mp reads
  exact Nat.le_add_right_of_le (Nat.le_mul_of_pos_right _ (Nat.pow_pos positive))

/-- Once the word overflows, so does the number. -/
theorem collectDigits?_eq {base : Nat} (positive : 0 < base) (small : base ≤ 16) (word : UInt64)
    (characters : List Char) :
    collectDigits? base word characters =
      ((digitsValue? base word.toNat characters).filter (· < UInt64.size)).map UInt64.ofNat := by
  induction characters generalizing word with
  | nil => simp [collectDigits?, digitsValue?, word.toNat_lt_size]
  | cons character rest induction =>
      rw [collectDigits?, digitsValue?]
      cases digitValue? base character with
      | none => rfl
      | some digit =>
          dsimp only
          split
          · rename_i fits
            have next : (word * UInt64.ofNat base + UInt64.ofNat digit).toNat =
                word.toNat * base + digit := by
              have word_le : word.toNat * base ≤ word.toNat * base + digit := Nat.le_add_right _ _
              have digit_le : digit ≤ word.toNat * base + digit := Nat.le_add_left _ _
              rw [UInt64.toNat_add, UInt64.toNat_mul,
                UInt64.toNat_ofNat_of_lt' (Nat.lt_of_le_of_lt digit_le fits),
                UInt64.toNat_ofNat_of_lt' (Nat.lt_of_le_of_lt small (by decide)),
                Nat.mod_eq_of_lt (Nat.lt_of_le_of_lt word_le fits), Nat.mod_eq_of_lt fits]
            rw [induction, next]
          · rename_i overflows
            cases reads : digitsValue? base (word.toNat * base + digit) rest with
            | none => rfl
            | some number =>
                have larger := le_of_digitsValue? positive reads
                have outside : UInt64.size ≤ number := Nat.le_trans (Nat.not_lt.mp overflows) larger
                simp [outside]

theorem IsNumeral.zero_cons {base number : Nat} {characters : List Char} (positive : 0 < base)
    (numeral : IsNumeral base characters number) : IsNumeral base ('0' :: characters) number := by
  obtain ⟨-, digits, same, small, value⟩ := numeral
  refine ⟨List.cons_ne_nil _ _, 0 :: digits, .cons (.inl rfl) same, ?_, ?_⟩
  · rw [List.forall_mem_cons]
    exact ⟨positive, small⟩
  · rw [List.reverse_cons, Nat.ofDigits_append, Nat.ofDigits_singleton, Nat.mul_zero, Nat.add_zero,
      value]

/-- The letter is the digit's, or its capital. -/
def InEitherCase (digit letter : Char) : Prop := letter = digit ∨ letter = digit.toUpper

theorem isDigit_digitChar {digit : Nat} {letter : Char} (small : digit < 16)
    (writes : InEitherCase digit.digitChar letter) : IsDigit letter digit := by
  have places : ∀ place : Fin 16,
      "0123456789abcdef".toList[place.val]? = some (Nat.digitChar place) ∧
        "0123456789ABCDEF".toList[place.val]? = some (Nat.digitChar place).toUpper := by decide
  rcases writes with rfl | rfl
  · exact .inl (places ⟨digit, small⟩).1
  · exact .inr (places ⟨digit, small⟩).2

theorem exists_digits {base : Nat} (above : 1 < base) (number : Nat) :
    ∃ digits, Nat.toDigits base number = digits.map Nat.digitChar ∧ digits ≠ [] ∧
      (∀ digit ∈ digits, digit < base) ∧ Nat.ofDigits base digits.reverse = number := by
  induction number using Nat.strongRecOn with
  | ind number induction =>
      rw [Nat.toDigits_eq_if above]
      split
      · rename_i small
        exact ⟨[number], rfl, by simp, by simpa using small, Nat.ofDigits_singleton⟩
      · rename_i large
        have smaller : number / base < number := Nat.div_lt_self (by omega) above
        obtain ⟨digits, same, _, small, value⟩ := induction _ smaller
        refine ⟨digits ++ [number % base], by rw [same, List.map_append]; rfl, by simp, ?_, ?_⟩
        · intro digit member
          rcases List.mem_append.mp member with front | last
          · exact small digit front
          · rw [List.mem_singleton.mp last]
            exact Nat.mod_lt _ (by omega)
        · rw [List.reverse_append, List.reverse_singleton, List.singleton_append, Nat.ofDigits_cons,
            value]
          exact Nat.mod_add_div number base

/-- The usual digits of a number are a numeral of it, with any zeros in front and each letter in
either case. -/
theorem isNumeral_toDigits {base : Nat} (above : 1 < base) (small : base ≤ 16) (number zeros : Nat)
    {letters : List Char}
    (writes : List.Forall₂ InEitherCase (Nat.toDigits base number) letters) :
    IsNumeral base (List.replicate zeros '0' ++ letters) number := by
  induction zeros with
  | zero =>
      obtain ⟨digits, same, nonempty, bounded, value⟩ := exists_digits above number
      rw [same, List.forall₂_map_left_iff] at writes
      have digitwise := (List.forall₂_and_left _ _).mpr ⟨bounded, writes⟩
      refine ⟨?_, digits, ?_, bounded, value⟩
      · rintro rfl
        cases writes
        exact nonempty rfl
      · apply List.Forall₂.flip
        exact digitwise.imp fun digit letter found =>
          isDigit_digitChar (Nat.lt_of_lt_of_le found.1 small) found.2
  | succ zeros induction => exact induction.zero_cons (Nat.zero_lt_of_lt above)

end Symbolication.Text
