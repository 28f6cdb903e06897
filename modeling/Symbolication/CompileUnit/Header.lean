import Symbolication.Decoder.Header

/-!
Unit headers. The section of entries is a chain of units, each beginning where the one before it
ends; the unit that owns an offset is found by walking the chain.
-/

namespace Symbolication

structure UnitHeader where
  /-- Where the header begins in the section of entries. -/
  offset : Nat
  /-- The size of the unit without the length itself. -/
  unitLength : Nat
  version : Version
  abbreviationOffset : Nat
  addressWidth : Width
deriving DecidableEq, Repr

namespace UnitHeader

def size : Nat := 11

def lengthSize : Nat := 4

def totalSize (header : UnitHeader) : Nat := header.unitLength + lengthSize

def stop (header : UnitHeader) : Nat := header.offset + header.totalSize

def firstEntry (header : UnitHeader) : Nat := header.offset + size

def contains (header : UnitHeader) (offset : Nat) : Bool :=
  header.offset ≤ offset && offset < header.stop

/-- The fields in order. The unit has to hold its header and to lie within the section. -/
def decoder : Decoder UnitHeader := do
  let start ← Decoder.offset
  let unitLength ← Decoder.initialLength
  let version ← Decoder.version start
  let abbreviationOffset ← Decoder.uint32
  let addressWidth ← Decoder.addressWidth
  let position ← Decoder.offset
  let left ← Decoder.left
  let header : UnitHeader :=
    { offset := start, unitLength, version, abbreviationOffset := abbreviationOffset.toNat
      addressWidth }
  if header.totalSize < size ∨ position + left < header.stop then
    Decoder.failAt (min header.stop (position + left)) .unexpectedEnd
  else
    pure header

def decode (info : Bytes) (offset : Nat) : Except DecodeError UnitHeader :=
  decoder.runAt .info info offset

theorem offset_of_run {cursor next : Cursor} {header : UnitHeader}
    (outcome : decoder.run cursor = .ok (header, next)) : header.offset = cursor.offset := by
  simp only [decoder, Decoder.run_bind_eq_ok, Decoder.run_offset] at outcome
  obtain ⟨start, _, located, _, _, _, _, _, _, _, _, _, _, _, _, position, _, _, left, _, _,
    outcome⟩ := outcome
  cases located
  split at outcome
  · cases outcome
  · cases outcome
    rfl

theorem offset_of_decode {info : Bytes} {offset : Nat} {header : UnitHeader}
    (outcome : decode info offset = .ok header) : header.offset = offset := by
  obtain ⟨_, _, run_outcome⟩ := Decoder.runAt_eq_ok.mp outcome
  exact offset_of_run run_outcome

/-- Walks the chain of units from `start` to the one that contains `offset`. Answers `none` when the
chain ends before. -/
def find? (info : Bytes) (offset start : Nat) : Except DecodeError (Option UnitHeader) :=
  if start < info.length then
    match _outcome : decode info start with
    | .error error => .error error
    | .ok header =>
        if header.contains offset then .ok (some header) else find? info offset header.stop
  else
    .ok none
termination_by info.length - start
decreasing_by
  have start_eq := offset_of_decode _outcome
  simp only [stop, totalSize, lengthSize]
  omega

def containing? (info : Bytes) (offset : Nat) : Except DecodeError (Option UnitHeader) :=
  find? info offset 0

end UnitHeader

end Symbolication
