import Symbolication.Bytes

/-!
The sizes that an address or a segment selector can have.
-/

namespace Symbolication

/-- A size of 1, 2, 4 or 8 bytes. -/
inductive Width where
  | one
  | two
  | four
  | eight
deriving DecidableEq, Repr

namespace Width

def bytes : Width → Nat
  | one => 1
  | two => 2
  | four => 4
  | eight => 8

def toUInt8 : Width → UInt8
  | one => 1
  | two => 2
  | four => 4
  | eight => 8

def ofUInt8? (size : UInt8) : Option Width :=
  if size = 1 then some one
  else if size = 2 then some two
  else if size = 4 then some four
  else if size = 8 then some eight
  else none

theorem ofUInt8?_toUInt8 (width : Width) : ofUInt8? width.toUInt8 = some width := by
  cases width <;> rfl

theorem bytes_pos (width : Width) : 0 < width.bytes := by
  cases width <;> decide

def allOnes : Width → UInt64
  | one => 0xff
  | two => 0xffff
  | four => 0xffffffff
  | eight => 0xffffffffffffffff

end Width

/-- The value of a constant of 1, 2, 4 or 8 bytes; other lengths have none. -/
def Bytes.constant? (bytes : Bytes) : Option UInt64 :=
  if bytes.length ∈ [1, 2, 4, 8] then some (UInt64.ofNat (Bytes.littleEndian bytes)) else none

end Symbolication
