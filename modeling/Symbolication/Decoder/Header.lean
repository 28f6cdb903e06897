import Symbolication.Decoder.Basic

/-!
The fields that begin units, line programs and address range sets: a length in the 32-bit format, a
version, and the size of addresses. Each is checked where it is read.
-/

namespace Symbolication.Decoder

variable {α : Type}

/-- Lengths from here on are reserved, or announce the 64-bit format. -/
def lengthEscape : UInt32 := 0xfffffff0

/-- A length. A reserved one is reported where the length begins. -/
def initialLength : Decoder Nat := do
  let (start, length) ← located uint32
  if length < lengthEscape then pure length.toNat else failAt start .unsupportedFormat

theorem initialLength_consumes : initialLength.Consumes :=
  (located_consumes uint32_consumes).bind _

def version (start : Nat) : Decoder Version := do
  let number ← uint16
  match Version.ofNumber? number with
  | some version => pure version
  | none => failAt start (.unsupportedVersion number)

/-- The width meant by a size byte at `start`. -/
def checkedWidth (start : Nat) (size : UInt8) : Decoder Width :=
  match Width.ofUInt8? size with
  | some width => pure width
  | none => failAt start (.unsupportedAddressSize size)

def addressWidth : Decoder Width := do
  let (start, size) ← located byte
  checkedWidth start size

/-- The size of segment selectors, or zero if there are none. -/
def segmentWidth : Decoder (Option Width) := do
  let (start, size) ← located byte
  if size = 0 then pure none else some <$> checkedWidth start size

end Symbolication.Decoder
