import Symbolication.Decoder.Header
import Symbolication.Decoder.Repetition

/-!
The index from addresses to units. The section is a row of sets, each of which lists the address
ranges of one unit; the first set with a range that covers an address names its unit.
-/

namespace Symbolication

/-- The addresses from `address` on, `length` of them, in a segment. -/
structure CoveredRange where
  segment : UInt64
  address : UInt64
  length : UInt64
deriving DecidableEq, Repr

/-- Whether the range covers an address of any segment. The difference is taken instead of the end,
which may lie at the very top of the address space. -/
def CoveredRange.contains (range : CoveredRange) (address : UInt64) : Bool :=
  range.address ≤ address && address - range.address < range.length

structure RangeSet where
  /-- Where the set begins in its section. -/
  offset : Nat
  /-- Where the unit begins in the section of entries. -/
  unitOffset : Nat
  addressWidth : Width
  segmentWidth : Option Width
  ranges : List CoveredRange
deriving DecidableEq, Repr

namespace RangeSet

def version : UInt16 := 2

def headerSize : Nat := 12

def tupleSize (addressWidth : Width) (segmentWidth : Option Width) : Nat :=
  2 * addressWidth.bytes + segmentWidth.elim 0 Width.bytes

/-- The bytes between header and tuples. The tuples begin at a multiple of their size, counted from
the beginning of the set. -/
def padding (tupleSize : Nat) : Nat :=
  (tupleSize - headerSize % tupleSize) % tupleSize

def tupleHead (addressWidth : Width) (segmentWidth : Option Width) : Decoder (UInt64 × UInt64) := do
  let segment ← segmentWidth.elim (pure 0) Decoder.word
  let address ← Decoder.word addressWidth
  pure (segment, address)

theorem tupleHead_consumes (addressWidth : Width) (segmentWidth : Option Width) :
    (tupleHead addressWidth segmentWidth).Consumes :=
  .of_bind _ fun _ => (Decoder.word_consumes addressWidth).bind _

/-- The tuples up to one that is all zero, or to the end of the set. -/
def tuples (addressWidth : Width) (segmentWidth : Option Width) : Decoder (List CoveredRange) :=
  .itemsWhileLeft (tupleHead addressWidth segmentWidth)
    (tupleHead_consumes addressWidth segmentWidth) fun (segment, address) => do
      let length ← Decoder.word addressWidth
      pure (if segment = 0 ∧ address = 0 ∧ length = 0 then none
        else some { segment, address, length })

/-- The contents of a set that begins at `start`. -/
def contents (start : Nat) : Decoder RangeSet := do
  let number ← Decoder.uint16
  if number ≠ version then
    Decoder.failAt start (.unsupportedVersion number)
  else
    let unitOffset ← Decoder.uint32
    let addressWidth ← Decoder.addressWidth
    let segmentWidth ← Decoder.segmentWidth
    Decoder.skip (padding (tupleSize addressWidth segmentWidth))
    let ranges ← tuples addressWidth segmentWidth
    pure { offset := start, unitOffset := unitOffset.toNat, addressWidth, segmentWidth, ranges }

end RangeSet

structure AddressIndex where
  sets : List RangeSet
deriving DecidableEq, Repr

namespace AddressIndex

/-- Sets up to the end of the section, each in a window of its own length. -/
def decoder : Decoder (List RangeSet) :=
  .itemsWhileLeft (.located .initialLength)
    (Decoder.located_consumes Decoder.initialLength_consumes) fun (start, length) => do
      let window ← Decoder.window length
      let set ← Decoder.within window (RangeSet.contents start)
      pure (some set)

def decode (addressRanges : Bytes) : Except DecodeError AddressIndex := do
  let sets ← decoder.runAt .addressRanges addressRanges 0
  .ok { sets }

/-- Where the first unit begins whose ranges cover the address. -/
def unitOffset? (index : AddressIndex) (address : UInt64) : Option Nat :=
  (index.sets.find? fun set => set.ranges.any (·.contains address)).map (·.unitOffset)

end AddressIndex

end Symbolication
