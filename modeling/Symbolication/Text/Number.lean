/-!
Numbers as text in base 16.
-/

namespace Symbolication.Text

/-- Lower-case digits in base 16 with the usual mark in front and no padding. -/
def hex (number : Nat) : String :=
  "0x" ++ String.ofList (Nat.toDigits 16 number)

/-- The value of a digit in a base up to 16, in either case. -/
def digitValue? (base : Nat) (character : Char) : Option Nat :=
  let value? :=
    if '0' ≤ character ∧ character ≤ '9' then some (character.toNat - '0'.toNat)
    else if 'a' ≤ character ∧ character ≤ 'f' then some (character.toNat - 'a'.toNat + 10)
    else if 'A' ≤ character ∧ character ≤ 'F' then some (character.toNat - 'A'.toNat + 10)
    else none
  value?.filter (· < base)

/-- The number that the digits write, the highest first, continuing from a value. Answers `none` at
the first character that is no digit of the base. -/
def digitsValue? (base : Nat) : Nat → List Char → Option Nat
  | value, [] => some value
  | value, character :: rest =>
      match digitValue? base character with
      | none => none
      | some digit => digitsValue? base (value * base + digit) rest

end Symbolication.Text
