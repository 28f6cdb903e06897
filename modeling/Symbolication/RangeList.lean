import Symbolication.AddressRange
import Symbolication.Decoder.Repetition

/-!
Range lists. A list is a row of address pairs up to a pair of zeros. A pair gives a range relative
to the base in force; a pair whose first address is all ones sets a new base instead.
-/

namespace Symbolication.RangeList

structure Pair where
  first : UInt64
  second : UInt64
deriving DecidableEq, Repr

/-- The pairs up to a pair of zeros. -/
def pairs (width : Width) : Decoder (List Pair) :=
  .itemsUntil (.word width) (Decoder.word_consumes width) fun first => do
    let second ← Decoder.word width
    pure (if first = 0 ∧ second = 0 then none else some { first, second })

/-- The ranges that the pairs mean when `base` is in force. Addresses wrap at 64 bits. -/
def ranges (width : Width) : UInt64 → List Pair → List AddressRange
  | _, [] => []
  | base, pair :: rest =>
      if pair.first = width.allOnes then ranges width pair.second rest
      else { start := base + pair.first, stop := base + pair.second } :: ranges width base rest

/-- The ranges of the list at an offset. The address size is checked first. -/
def decode (rangeLists : Bytes) (offset : Nat) (addressSize : UInt8) (base : UInt64) :
    Except DecodeError (List AddressRange) :=
  match Width.ofUInt8? addressSize with
  | none =>
      .error { source := .rangeLists, offset, fault := .unsupportedAddressSize addressSize }
  | some width => do
      let pairs ← (pairs width).runAt .rangeLists rangeLists offset
      .ok (ranges width base pairs)

end Symbolication.RangeList
