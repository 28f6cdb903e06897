/-!
Half-open ranges of 64-bit addresses.
-/

namespace Symbolication

structure AddressRange where
  start : UInt64
  stop : UInt64
deriving DecidableEq, Repr

def AddressRange.contains (range : AddressRange) (address : UInt64) : Bool :=
  range.start ≤ address && address < range.stop

end Symbolication
