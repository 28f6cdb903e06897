import Symbolication.Text.Blank
import Symbolication.Text.Number
import Symbolication.Text.Quoted

/-!
The text of an address: decimal digits, or hexadecimal ones after `0x` or `0X`, with white space
around them ignored and one plus sign allowed before the digits.
-/

namespace Symbolication.Address

/-- A non-empty run of digits after at most one plus sign. -/
def number? (base : Nat) (characters : List Char) : Option Nat :=
  let digits :=
    match characters with
    | '+' :: rest => rest
    | other => other
  if digits.isEmpty then none else Text.digitsValue? base 0 digits

/-- The value of text without white space around it. -/
def value? : List Char → Option Nat
  | '0' :: 'x' :: rest => number? 16 rest
  | '0' :: 'X' :: rest => number? 16 rest
  | characters => number? 10 characters

/-- The address that the text denotes, if it denotes one of 64 bits. -/
def parse? (text : String) : Option UInt64 :=
  ((value? (Text.trim text.toList)).filter (· < UInt64.size)).map UInt64.ofNat

def invalidMessage (text : String) : String := "invalid address " ++ Text.quoted text

end Symbolication.Address
